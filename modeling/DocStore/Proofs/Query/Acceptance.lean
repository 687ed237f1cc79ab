import DocStore.Proofs.Query.Derivation
import DocStore.Proofs.Query.Render

/-!
# What is derived is read

A phrase that keeps the rules beyond the grammar is read with its
meaning, if what follows does not continue it (`Stops`). One token of
what follows decides, since the parser looks one token ahead.

For expressions this is an induction on the derivation
(`accepted_of_derives`). The statements about AND and OR are about the
loop that goes on behind a phrase (`TakesUpTo`), not about its end, so
that a chain that is derived to the left is read by a loop. Fuel is
counted in tokens: eight for each, and one for each level.

In a query each clause is followed by the word of a later clause
(`Begins`), so that a clause that is left out is seen to be left out
(`readQuery_of_derives`). With what is read being derived, the parser
accepts the grammar and nothing else (`parse_eq_ok_iff`).
-/

namespace DocStore

/-! ## What follows -/

/-- What follows does not continue an expression of the level. -/
def Stops (n : Nat) (rest : List Token) : Prop :=
  ∀ t ∈ rest.head?, t.kind.binding ≤ n

theorem Stops.mono {m n : Nat} {rest : List Token} (h : Stops m rest) (hmn : m ≤ n) :
    Stops n rest :=
  fun t ht => Nat.le_trans (h t ht) hmn

theorem stops_cons {n : Nat} {t : Token} (rest : List Token) (h : t.kind.binding ≤ n) :
    Stops n (t :: rest) := by
  intro u hu
  obtain rfl : t = u := by simpa using hu
  exact h

theorem Stops.ne {n : Nat} {rest : List Token} (h : Stops n rest) {kind : TokenKind}
    (hkind : n < kind.binding) : ∀ t ∈ rest.head?, t.kind ≠ kind := by
  rintro t ht rfl
  have := h t ht
  omega

theorem skipKind_of_head {kind : TokenKind} {tokens : List Token}
    (h : ∀ t ∈ tokens.head?, t.kind ≠ kind) : skipKind kind tokens = none := by
  cases tokens with
  | nil => rfl
  | cons t rest => exact skipKind_of_ne (h t rfl) rest

/-! ## Chains -/

/-- The function reads the phrase. -/
def Takes (read : Nat → List Token → Except ParseError (Parsed Expr)) (n cost : Nat)
    (tokens : List Token) (e : Expr) (rest : List Token) : Prop :=
  Stops n rest → ∀ F, 8 * tokens.length + cost ≤ F → read F tokens = .ok (e, rest)

/-- The function reads the phrase and goes on with the loop behind
it. -/
def TakesUpTo (read : Nat → List Token → Except ParseError (Parsed Expr))
    (loop : Nat → Expr → List Token → Except ParseError (Parsed Expr)) (n cost : Nat)
    (tokens : List Token) (e : Expr) (rest : List Token) : Prop :=
  Stops n rest → ∀ F, 8 * tokens.length + cost ≤ F →
    ∃ G, read F tokens = loop G e rest ∧ 8 * rest.length + cost ≤ G

section Chain

variable {word : Keyword} {op : BinaryOp}
  {operand read : Nat → List Token → Except ParseError (Parsed Expr)}
  {loop : Nat → Expr → List Token → Except ParseError (Parsed Expr)}
  {tokens rest : List Token}

/-- An operand is a chain of one. -/
theorem IsChain.takesUpTo (hchain : IsChain word op operand read loop) {m n cost : Nat}
    (hmn : m ≤ n) {e : Expr} (hlength : rest.length < tokens.length)
    (h : Takes operand n cost tokens e rest) :
    TakesUpTo read loop m (cost + 1) tokens e rest := by
  intro hstops F hF
  obtain ⟨G, rfl⟩ : ∃ G, F = G + 1 := ⟨F - 1, by omega⟩
  refine ⟨G, ?_, by omega⟩
  rw [hchain.start, h (hstops.mono hmn) G (by omega), ok_bind]

/-- The loop ends where the word does not follow. -/
theorem IsChain.takes (hchain : IsChain word op operand read loop) {m n cost : Nat}
    (hmn : m ≤ n) (hword : m < (TokenKind.keyword word).binding) (hcost : 1 ≤ cost) {e : Expr}
    (h : TakesUpTo read loop n cost tokens e rest) : Takes read m cost tokens e rest := by
  intro hstops F hF
  obtain ⟨G, hread, hG⟩ := h (hstops.mono hmn) F hF
  obtain ⟨G, rfl⟩ : ∃ H, G = H + 1 := ⟨G - 1, by omega⟩
  rw [hread, hchain.stop G e (hstops.ne hword)]

/-- One more operand behind the word. -/
theorem IsChain.takesUpTo_binary (hchain : IsChain word op operand read loop)
    {n n' cost cost' : Nat} (hn : n ≤ n') (hword : (TokenKind.keyword word).binding ≤ n)
    (hcost : cost' ≤ cost) {w : Token} (hw : w.kind = .keyword word) {more : List Token}
    (hlength : rest.length < more.length) {l r : Expr}
    (hl : TakesUpTo read loop n cost tokens l (w :: more))
    (hr : Takes operand n' cost' more r rest) :
    TakesUpTo read loop n cost tokens (.binary op l r w.position) rest := by
  intro hstops F hF
  obtain ⟨G, hread, hG⟩ := hl (stops_cons more (by rw [hw]; exact hword)) F hF
  rw [List.length_cons] at hG
  obtain ⟨G, rfl⟩ : ∃ H, G = H + 1 := ⟨G - 1, by omega⟩
  refine ⟨G, ?_, by omega⟩
  rw [hread, hchain.go G l more hw, hr (hstops.mono hn) G (by omega), ok_bind]

end Chain

/-! ## Expressions -/

/-- The phrase is read by the function of its nonterminal. -/
def Accepted (ctx : ParseContext) : Nonterminal → List Token → Expr → List Token → Prop
  | .or => TakesUpTo (Expr.readOr ctx) (Expr.readOrRest ctx) 1 4
  | .and => TakesUpTo (Expr.readAnd ctx) (Expr.readAndRest ctx) 2 3
  | .not => Takes (Expr.readNot ctx) 3 2
  | .comparison => Takes (Expr.readComparison ctx) 3 1
  | .operand => Takes (Expr.readOperand ctx) 4 0

section Expressions

variable {ctx : ParseContext} {tokens more rest : List Token}

theorem Accepted.takesAnd {e : Expr} (h : Accepted ctx .and tokens e rest) :
    Takes (Expr.readAnd ctx) 1 3 tokens e rest :=
  (isChain_and ctx).takes (by omega) (by decide) (by omega) h

theorem Accepted.takesOr {e : Expr} (h : Accepted ctx .or tokens e rest) :
    Takes (Expr.readOr ctx) 0 4 tokens e rest :=
  (isChain_or ctx).takes (by omega) (by decide) (by omega) h

theorem accepted_not_of_comparison {e : Expr} (h : Accepted ctx .comparison tokens e rest) :
    Accepted ctx .not tokens e rest := by
  intro hstops F hF
  obtain ⟨G, rfl⟩ : ∃ G, F = G + 1 := ⟨F - 1, by omega⟩
  have hread := h hstops G (by omega)
  rw [Expr.readNot.eq_def]
  cases tokens with
  | nil => exact hread
  | cons t tokens =>
      -- no operand starts with NOT
      have hnot : t.kind ≠ .keyword .not := by
        intro hk
        obtain ⟨err, herr⟩ := readComparison_error ctx (t := t) (by rw [hk]; rfl) G tokens
        rw [hread] at herr
        cases herr
      simp only [if_neg hnot]
      exact hread

theorem accepted_not {word : Token} (hword : word.kind = .keyword .not) {e : Expr}
    (h : Accepted ctx .not tokens e rest) :
    Accepted ctx .not (word :: tokens) (.unary .not e word.position) rest := by
  intro hstops F hF
  rw [List.length_cons] at hF
  obtain ⟨G, rfl⟩ : ∃ G, F = G + 1 := ⟨F - 1, by omega⟩
  rw [Expr.readNot]
  simp only [if_pos hword, h hstops G (by omega)]
  rfl

theorem accepted_comparison_of_operand {e : Expr} (h : Accepted ctx .operand tokens e rest) :
    Accepted ctx .comparison tokens e rest := by
  intro hstops F hF
  obtain ⟨G, rfl⟩ : ∃ G, F = G + 1 := ⟨F - 1, by omega⟩
  rw [Expr.readComparison, h (hstops.mono (by omega)) G (by omega)]
  cases rest with
  | nil => rfl
  | cons t rest =>
      simp only [ok_bind, comparison?_of_binding (hstops t rfl)]
      rfl

theorem accepted_comparison {sign : Token} {c : Comparison} (hsign : sign.kind = .comparison c)
    (hlength : more.length < tokens.length) {l r : Expr}
    (hl : Accepted ctx .operand tokens l (sign :: more))
    (hr : Accepted ctx .operand more r rest) :
    Accepted ctx .comparison tokens (.binary (.compare c) l r sign.position) rest := by
  intro hstops F hF
  obtain ⟨G, rfl⟩ : ∃ G, F = G + 1 := ⟨F - 1, by omega⟩
  have hc : Expr.comparison? sign = some c := by rw [Expr.comparison?, hsign]
  have hleft := hl (stops_cons more (by rw [hsign]; exact Nat.le_refl 4)) G (by omega)
  have hright := hr (hstops.mono (by omega)) G (by omega)
  rw [Expr.readComparison, hleft]
  simp only [ok_bind, hc, hright]
  rfl

theorem accepted_literal {t : Token} (ht : t.kind.literal?.isSome = true) :
    Accepted ctx .operand (t :: rest) (.constant t.kind.literal? t.position) rest := by
  intro _ F hF
  rw [List.length_cons] at hF
  obtain ⟨G, rfl⟩ : ∃ G, F = G + 1 := ⟨F - 1, by omega⟩
  obtain ⟨v, hv⟩ := Option.isSome_iff_exists.mp ht
  rw [Expr.readOperand]
  simp only [hv]

theorem accepted_parameter {t : Token} (ht : t.kind = .parameter)
    (hbound : (ctx.parameters.get? t.text).isSome = true) :
    Accepted ctx .operand (t :: rest) (.constant (ctx.parameters.get? t.text) t.position)
      rest := by
  intro _ F hF
  rw [List.length_cons] at hF
  obtain ⟨G, rfl⟩ : ∃ G, F = G + 1 := ⟨F - 1, by omega⟩
  obtain ⟨v, hv⟩ := Option.isSome_iff_exists.mp hbound
  rw [Expr.readOperand]
  simp only [ht, TokenKind.literal?, ParseContext.parameter, hv]
  rfl

theorem readNames_of_derives (stop : Position) {names : List String}
    (h : DerivesNames tokens names rest) (hstops : Stops 4 rest) :
    RawPath.readRest stop tokens = .ok (names, rest) := by
  induction h with
  | @nil tokens =>
      have hdot : ∀ t ∈ tokens.head?, t.kind ≠ .sign .dot := hstops.ne (by decide)
      match tokens, hdot with
      | [], _ => rfl
      | [t], hdot => simp only [RawPath.readRest, if_neg (hdot t rfl)]
      | t :: u :: ts, hdot => simp only [RawPath.readRest, if_neg (hdot t rfl)]
  | cons hpoint hname h ih =>
      rw [RawPath.readRest]
      simp only [if_pos hpoint, if_pos hname, ih hstops]
      rfl

theorem readPath_of_derives (stop : Position) (what : Expectation) {p : RawPath}
    (h : DerivesPath tokens p rest) (hstops : Stops 4 rest) :
    RawPath.read stop what tokens = .ok (p, rest) := by
  obtain ⟨hstart, hnames⟩ := h
  rw [RawPath.read, readKind_of_eq stop what hstart, ok_bind]
  simp only [readNames_of_derives stop hnames hstops]
  rfl

theorem accepted_path {p : RawPath} (h : DerivesPath tokens p rest) :
    Accepted ctx .operand tokens
      (.property p.text (p.below ctx.aliases) p.start.position) rest := by
  intro hstops F hF
  have hread := readPath_of_derives ctx.stop .operand h hstops
  obtain ⟨hstart, hnames⟩ := h
  rename_i start ts names
  rw [List.length_cons] at hF
  obtain ⟨G, rfl⟩ : ∃ G, F = G + 1 := ⟨F - 1, by omega⟩
  -- what stands behind the first name opens no call
  have hcall : skipKind (.sign .leftParen) ts = none := by
    refine skipKind_of_head ?_
    cases hnames with
    | nil => exact hstops.ne (by decide)
    | cons hpoint hname h => simp [hpoint]
  rw [Expr.readOperand]
  simp only [hstart, TokenKind.literal?, hcall, hread]
  rfl

theorem accepted_parentheses {opening closing : Token} (hopening : opening.kind = .sign .leftParen)
    (hclosing : closing.kind = .sign .rightParen) {e : Expr}
    (h : Accepted ctx .or tokens e (closing :: rest)) :
    Accepted ctx .operand (opening :: tokens) e rest := by
  intro _ F hF
  rw [List.length_cons] at hF
  obtain ⟨G, rfl⟩ : ∃ G, F = G + 1 := ⟨F - 1, by omega⟩
  have hread := h.takesOr (stops_cons rest (by rw [hclosing]; exact Nat.le_refl 0)) G (by omega)
  rw [Expr.readOperand]
  simp only [hopening, TokenKind.literal?, hread, ok_bind,
    readKind_of_eq ctx.stop .closingParen hclosing]
  rfl

/-- The arguments of a call are read up to the closing parenthesis. -/
theorem readArgs_of_listed {phrase : List Token → RawExpr → List Token → Prop}
    (hphrase : ∀ tokens e rest, phrase tokens e rest → Derives .or tokens e rest)
    {args : List RawExpr} {closing : Token} (h : Listed phrase tokens args (closing :: rest))
    (hargs : ∀ e ∈ args, ∀ tokens rest, phrase tokens e rest →
      Accepted ctx .or tokens (e.expr ctx.parameters ctx.aliases) rest)
    (hclosing : closing.kind = .sign .rightParen) {F : Nat} (hF : 8 * tokens.length + 5 ≤ F) :
    Expr.readArgs ctx F tokens =
      .ok (RawExpr.exprAll ctx.parameters ctx.aliases args, closing :: rest) := by
  generalize hleft : closing :: rest = left at h
  induction h generalizing F with
  | one h =>
      subst hleft
      obtain ⟨G, rfl⟩ : ∃ G, F = G + 1 := ⟨F - 1, by omega⟩
      have hread := (hargs _ (by simp) _ _ h).takesOr
        (stops_cons rest (by rw [hclosing]; exact Nat.le_refl 0)) G (by omega)
      have hcomma : closing.kind ≠ .sign .comma := by rw [hclosing]; decide
      rw [Expr.readArgs, hread]
      simp only [ok_bind, skipKind_of_ne hcomma]
      rfl
  | @more tokens more _ comma e es h hcomma hs ih =>
      obtain ⟨G, rfl⟩ : ∃ G, F = G + 1 := ⟨F - 1, by omega⟩
      have hlength := (shortens_derives .or _ _ _ (hphrase _ _ _ h)).2
      rw [List.length_cons] at hlength
      have hread := (hargs e (by simp) _ _ h).takesOr
        (stops_cons more (by rw [hcomma]; exact Nat.le_refl 0)) G (by omega)
      have hreads := ih (fun a ha => hargs a (List.mem_cons_of_mem e ha)) (F := G) (by omega) hleft
      rw [Expr.readArgs, hread]
      simp only [ok_bind, skipKind_of_eq hcomma, hreads]
      rfl

/-- A call is read, given what its arguments are read as. -/
theorem accepted_call {name opening closing : Token} (hname : name.kind = .identifier)
    (hopening : opening.kind = .sign .leftParen) (hclosing : closing.kind = .sign .rightParen)
    (es : List Expr) (htakes : ctx.registry.Takes (name, es.length))
    (hargs : (es = [] ∧ tokens = closing :: rest) ∨
      (∀ F, 8 * tokens.length + 5 ≤ F → Expr.readArgs ctx F tokens = .ok (es, closing :: rest))) :
    Accepted ctx .operand (name :: opening :: tokens)
      (.call name.text.upperCase es name.position) rest := by
  intro _ F hF
  simp only [List.length_cons] at hF
  obtain ⟨G, rfl⟩ : ∃ G, F = G + 2 := ⟨F - 2, by omega⟩
  obtain ⟨f, hf, harity⟩ := htakes
  have hinner : skipKind (.sign .leftParen) (opening :: tokens) = some tokens :=
    skipKind_of_eq hopening tokens
  have hclose := readKind_of_eq ctx.stop (.closingCall name.text.upperCase) hclosing rest
  rw [Expr.readOperand]
  simp only [hname, TokenKind.literal?, hinner]
  rw [Expr.readCall]
  simp only [hf]
  rcases hargs with ⟨rfl, rfl⟩ | hread
  · have hskip : skipKind (.sign .rightParen) (closing :: rest) = some rest :=
      skipKind_of_eq hclosing rest
    have harity : f.arity = (([] : List Expr).length : Int) := harity
    simp only [hskip, ok_bind, hclose, if_pos harity]
    rfl
  · have hread := hread G (by omega)
    have harity : f.arity = (es.length : Int) := harity
    simp only [skipKind_of_readArgs hread, hread, ok_bind, hclose, if_pos harity]
    rfl

/-- What is derived is read, by induction on the derivation. -/
theorem accepted_of_derives {n : Nonterminal} {e : RawExpr} (h : Derives n tokens e rest)
    (hadmitted : e.Admitted ctx) :
    Accepted ctx n tokens (e.expr ctx.parameters ctx.aliases) rest := by
  induction h with
  | and_or h ih =>
      exact (isChain_or ctx).takesUpTo (by omega) (shortens_derives _ _ _ _ h).2
        (ih hadmitted).takesAnd
  | or hl hword hr ihl ihr =>
      obtain ⟨hl', hr'⟩ := RawExpr.admitted_binary_iff.mp hadmitted
      exact (isChain_or ctx).takesUpTo_binary (by omega) (by decide) (by omega) hword
        (shortens_derives _ _ _ _ hr).2 (ihl hl') (ihr hr').takesAnd
  | not_and h ih =>
      exact (isChain_and ctx).takesUpTo (by omega) (shortens_derives _ _ _ _ h).2 (ih hadmitted)
  | and hl hword hr ihl ihr =>
      obtain ⟨hl', hr'⟩ := RawExpr.admitted_binary_iff.mp hadmitted
      exact (isChain_and ctx).takesUpTo_binary (by omega) (by decide) (by omega) hword
        (shortens_derives _ _ _ _ hr).2 (ihl hl') (ihr hr')
  | comparison_not h ih => exact accepted_not_of_comparison (ih hadmitted)
  | not hword h ih => exact accepted_not hword (ih (RawExpr.admitted_not_iff.mp hadmitted))
  | operand_comparison h ih => exact accepted_comparison_of_operand (ih hadmitted)
  | comparison hl hsign hr ihl ihr =>
      obtain ⟨hl', hr'⟩ := RawExpr.admitted_binary_iff.mp hadmitted
      have hlength := (shortens_derives _ _ _ _ hl).2
      rw [List.length_cons] at hlength
      exact accepted_comparison hsign (by omega) (ihl hl') (ihr hr')
  | literal ht => exact accepted_literal ht
  | parameter ht =>
      exact accepted_parameter ht (RawExpr.admitted_parameter_iff.mp hadmitted)
  | path h => exact accepted_path h
  | emptyCall hname hopening hclosing =>
      exact accepted_call hname hopening hclosing [] (RawExpr.admitted_call_iff.mp hadmitted).1
        (.inl ⟨rfl, rfl⟩)
  | call hname hopening argument hargument hargs hclosing ih =>
      obtain ⟨htakes, hall⟩ := RawExpr.admitted_call_iff.mp hadmitted
      refine accepted_call hname hopening hclosing _ ?_ (.inr fun F hF => ?_)
      · rwa [RawExpr.exprAll_eq_map, List.length_map]
      · exact readArgs_of_listed hargument hargs
          (fun e he tokens rest h => ih tokens e rest h (hall e he)) hclosing hF
  | parentheses hopening h hclosing ih =>
      exact accepted_parentheses hopening hclosing (ih hadmitted)

/-- A condition is read as a whole. -/
theorem read_of_derives {e : RawExpr} (h : Derives .or tokens e rest)
    (hadmitted : e.Admitted ctx) (hstops : Stops 0 rest) :
    Expr.read ctx tokens = .ok (e.expr ctx.parameters ctx.aliases, rest) :=
  (accepted_of_derives h hadmitted).takesOr hstops _ (by rw [Expr.fuel]; omega)

end Expressions

/-! ## Clauses -/

/-- What follows is one of the kinds, or the end. -/
def Begins (kinds : List TokenKind) (tokens : List Token) : Prop :=
  ∀ t ∈ tokens.head?, t.kind ∈ kinds

theorem begins_nil (kinds : List TokenKind) : Begins kinds [] :=
  fun t ht => by simp at ht

theorem begins_cons {kinds : List TokenKind} {t : Token} (ht : t.kind ∈ kinds)
    (rest : List Token) : Begins kinds (t :: rest) := by
  intro u hu
  obtain rfl : t = u := by simpa using hu
  exact ht

section Begins

variable {kinds more : List TokenKind} {tokens rest : List Token}

theorem Begins.mono (h : Begins kinds tokens) (hsub : kinds ⊆ more) : Begins more tokens :=
  fun t ht => hsub (h t ht)

theorem Begins.skipKind (h : Begins kinds tokens) {kind : TokenKind} (hkind : kind ∉ kinds) :
    skipKind kind tokens = none :=
  skipKind_of_head fun t ht heq => hkind (heq ▸ h t ht)

theorem Begins.stops (h : Begins kinds tokens) {n : Nat}
    (hkinds : ∀ kind ∈ kinds, kind.binding ≤ n) : Stops n tokens :=
  fun t ht => hkinds _ (h t ht)

variable {α : Type} {phrase : List Token → α → List Token → Prop}

/-- A phrase that may be left out, before others. -/
theorem Maybe.begins (hphrase : ∀ tokens a rest, phrase tokens a rest → Begins kinds tokens)
    {a? : Option α} (h : Maybe phrase tokens a? rest) (hrest : Begins more rest) :
    Begins (kinds ++ more) tokens := by
  cases h with
  | absent => exact hrest.mono (List.subset_append_right ..)
  | present h => exact (hphrase _ _ _ h).mono (List.subset_append_left ..)

theorem Listed.begins (hphrase : ∀ tokens a rest, phrase tokens a rest → Begins kinds tokens)
    {as : List α} (h : Listed phrase tokens as rest) : Begins kinds tokens := by
  cases h with
  | one h | more h => exact hphrase _ _ _ h

end Begins

theorem begins_path : ∀ tokens p rest, DerivesPath tokens p rest → Begins [.identifier] tokens := by
  rintro _ _ _ ⟨hstart, -⟩
  exact begins_cons (by simp [hstart]) _

theorem begins_as : ∀ tokens name rest, DerivesAs tokens name rest →
    Begins [.keyword .as_] tokens := by
  rintro _ _ _ ⟨hword, -⟩
  exact begins_cons (by simp [hword]) _

theorem begins_item : ∀ tokens item rest, DerivesItem tokens item rest →
    Begins [.identifier] tokens := by
  rintro tokens _ _ ⟨hpath, -⟩
  exact begins_path tokens _ _ hpath

theorem begins_where : ∀ tokens e rest, DerivesWhere tokens e rest →
    Begins [.keyword .where_] tokens := by
  rintro _ _ _ ⟨hword, -⟩
  exact begins_cons (by simp [hword]) _

theorem begins_rows (clause : Keyword) : ∀ tokens t rest, DerivesRows clause tokens t rest →
    Begins [.keyword clause] tokens := by
  rintro _ _ _ ⟨hword, -⟩
  exact begins_cons (by simp [hword]) _

section Clauses

variable {ctx : ParseContext} {stop : Position} {kinds : List TokenKind}
  {tokens rest : List Token}

theorem DerivesProjection.begins {projection : Option (List RawItem)}
    (h : DerivesProjection tokens projection rest) :
    Begins [.sign .star, .identifier] tokens := by
  cases h with
  | star ht => exact begins_cons (by simp [ht]) _
  | items h => exact (h.begins begins_item).mono (by simp)

theorem DerivesDirection.begins {direction : SortDirection}
    (h : DerivesDirection tokens direction rest) (hrest : Begins kinds rest) :
    Begins ([.keyword .asc, .keyword .desc] ++ kinds) tokens := by
  cases h with
  | none => exact hrest.mono (List.subset_append_right ..)
  | asc hword | desc hword => exact begins_cons (by simp [hword]) _

theorem DerivesOrderBy.begins {keys : List RawKey} (h : DerivesOrderBy tokens keys rest)
    (hrest : Begins kinds rest) : Begins ([.keyword .order] ++ kinds) tokens := by
  cases h with
  | absent => exact hrest.mono (List.subset_append_right ..)
  | present horder => exact begins_cons (by simp [horder]) _

/-- Entries that are derived are read, with a token of fuel for each. -/
theorem ReadsList.read_of_listed {α β : Type} {f : α → β}
    {step : List Token → Except ParseError (Parsed β)}
    {loop : Nat → List Token → Except ParseError (Parsed (List β))}
    {phrase : List Token → α → List Token → Prop} (hloop : ReadsList step loop)
    (hphrase : Shortens phrase)
    (hstep : ∀ tokens a rest, phrase tokens a rest → Begins (.sign .comma :: kinds) rest →
      step tokens = .ok (f a, rest))
    {as : List α} (h : Listed phrase tokens as rest) (hrest : Begins kinds rest)
    (hcomma : .sign .comma ∉ kinds) {F : Nat} (hF : tokens.length < F) :
    loop F tokens = .ok (as.map f, rest) := by
  induction h generalizing F with
  | one h =>
      obtain ⟨G, rfl⟩ : ∃ G, F = G + 1 := ⟨F - 1, by omega⟩
      rw [hloop, hstep _ _ _ h (hrest.mono (List.subset_cons_self ..))]
      simp only [ok_bind, hrest.skipKind hcomma]
      rfl
  | @more tokens left rest comma a as h hsign hs ih =>
      obtain ⟨G, rfl⟩ : ∃ G, F = G + 1 := ⟨F - 1, by omega⟩
      have hlength := (hphrase _ _ _ h).2
      rw [List.length_cons] at hlength
      have hread := hstep _ _ _ h (begins_cons (by simp [hsign]) left)
      have hreads := ih hrest (F := G) (by omega)
      rw [hloop, hread]
      simp only [ok_bind, skipKind_of_eq hsign, hreads]
      rfl

theorem readAs_of_derives (what : Expectation) {name? : Option String}
    (h : Maybe DerivesAs tokens name? rest) (hrest : Begins kinds rest)
    (has : .keyword .as_ ∉ kinds) : readAs stop what tokens = .ok (name?, rest) := by
  cases h with
  | absent =>
      rw [readAs, hrest.skipKind has]
      rfl
  | present h =>
      obtain ⟨hword, hname⟩ := h
      rw [readAs, skipKind_of_eq hword]
      simp only [readKind_of_eq stop what hname, ok_bind]
      rfl

theorem readItem_of_derives {item : RawItem} (h : DerivesItem tokens item rest)
    (hrest : Begins [.sign .comma, .keyword .from_] rest) :
    readItem stop tokens = .ok (item, rest) := by
  obtain ⟨hpath, halias⟩ := h
  have hstops := (halias.begins begins_as hrest).stops (n := 4) (by decide)
  rw [readItem, readPath_of_derives stop .projection hpath hstops, ok_bind]
  simp only [readAs_of_derives .outputName halias hrest (by decide)]
  rfl

theorem readProjection_of_derives {projection : Option (List RawItem)}
    (h : DerivesProjection tokens projection rest) (hrest : Begins [.keyword .from_] rest) :
    readProjection stop tokens = .ok (projection, rest) := by
  cases h with
  | star ht =>
      rw [readProjection, skipKind_of_eq ht]
  | @items _ _ items h =>
      have hreads := (readsList_readItems stop).read_of_listed shortens_item (f := id)
        (fun _ _ _ h hrest => readItem_of_derives h hrest) h hrest (by decide)
        (F := tokens.length + 1) (by omega)
      rw [List.map_id] at hreads
      rw [readProjection, (h.begins begins_item).skipKind (by decide)]
      simp only [hreads]
      rfl

theorem buildProjection_of_alone {aliases : List String} {projection : Option (List RawItem)}
    (h : SelectsAlone aliases projection) :
    buildProjection aliases projection = .ok (projectionOf aliases projection) := by
  unfold buildProjection
  split
  · rfl
  · simp [projectionOf]
  · rename_i items hitems
    cases hfind : items.find? (·.isWhole aliases) with
    | some item =>
        have hone := h items rfl
          ⟨item, List.mem_of_find?_eq_some hfind, List.find?_some hfind⟩
        obtain ⟨item, rfl⟩ := List.length_eq_one_iff.mp hone
        exact absurd rfl (hitems item)
    | none =>
        have hany : items.any (·.isWhole aliases) = false := by
          simpa [List.find?_eq_none, List.any_eq_false] using hfind
        simp [projectionOf, hany]

theorem readAlias_of_derives {name? : Option String} (h : Maybe DerivesAlias tokens name? rest)
    (hrest : Begins kinds rest) (has : .keyword .as_ ∉ kinds) (hname : .identifier ∉ kinds) :
    readAlias stop tokens = .ok (name?, rest) := by
  unfold readAlias
  cases h with
  | absent =>
      rw [hrest.skipKind has]
      cases tokens with
      | nil => simp only [readAs, skipKind]; rfl
      | cons t tokens =>
          have ht : t.kind ≠ .identifier := fun ht => hname (ht ▸ hrest t rfl)
          simp only [if_neg ht]
  | present h =>
      cases h with
      | named h =>
          have hread : readAs stop .sourceAlias tokens = .ok (some _, rest) :=
            readAs_of_derives .sourceAlias (.present h) hrest has
          obtain ⟨hword, -⟩ := h
          rw [skipKind_of_eq hword]
          exact hread
      | bare ht =>
          have has : ¬ TokenKind.identifier = .keyword .as_ := by simp
          rw [skipKind_of_ne (ht ▸ has)]
          simp only [if_pos ht]

theorem readWhere_of_derives (ctx : ParseContext) {where? : Option RawExpr}
    (h : Maybe DerivesWhere tokens where? rest) (hadmitted : ∀ e ∈ where?, e.Admitted ctx)
    (hrest : Begins kinds rest) (hwhere : .keyword .where_ ∉ kinds)
    (hkinds : ∀ kind ∈ kinds, kind.binding ≤ 0) :
    readWhere ctx tokens =
      .ok (where?.map (·.expr ctx.parameters ctx.aliases), rest) := by
  cases h with
  | absent =>
      rw [readWhere, hrest.skipKind hwhere]
      rfl
  | present h =>
      obtain ⟨hword, h⟩ := h
      rw [readWhere, skipKind_of_eq hword]
      simp only [read_of_derives h (hadmitted _ rfl) (hrest.stops hkinds)]
      rfl

theorem readDirection_of_derives {direction : SortDirection}
    (h : DerivesDirection tokens direction rest) (hrest : Begins kinds rest)
    (hasc : .keyword .asc ∉ kinds) (hdesc : .keyword .desc ∉ kinds) :
    readDirection tokens = (direction, rest) := by
  cases h with
  | none => rw [readDirection, hrest.skipKind hasc, hrest.skipKind hdesc]
  | asc hword =>
      rw [readDirection, skipKind_of_eq hword, skipKind_of_ne (by simp [hword])]
  | desc hword => rw [readDirection, skipKind_of_eq hword]

theorem readKey_of_derives (aliases : List String) {key : RawKey}
    (h : DerivesKey tokens key rest) (hrest : Begins [.sign .comma, .keyword .limit] rest) :
    readKey stop aliases tokens = .ok (key.strip aliases, rest) := by
  obtain ⟨hpath, hdirection⟩ := h
  have hstops := (hdirection.begins hrest).stops (n := 4) (by decide)
  rw [readKey, readPath_of_derives stop .orderKey hpath hstops, ok_bind]
  simp only [readDirection_of_derives hdirection hrest (by decide) (by decide)]
  rfl

theorem readOrderBy_of_derives (ctx : ParseContext) {keys : List RawKey}
    (h : DerivesOrderBy tokens keys rest) (hrest : Begins [.keyword .limit] rest) :
    readOrderBy ctx tokens = .ok (keys.map (·.strip ctx.aliases), rest) := by
  cases h with
  | absent =>
      rw [readOrderBy, hrest.skipKind (by decide)]
      rfl
  | @present order by_ tokens _ _ horder hby h =>
      have hreads := (readsList_readKeys ctx.stop ctx.aliases).read_of_listed shortens_key
        (fun _ _ _ h hrest => readKey_of_derives ctx.aliases h hrest) h hrest (by decide)
        (F := tokens.length + 1) (by omega)
      rw [readOrderBy, skipKind_of_eq horder]
      simp only [readKind_of_eq ctx.stop .orderBy hby, ok_bind, hreads]

theorem readRows_of_value (clause : RowClause) {t : Token}
    (ht : (∃ n, t.kind = .integer n) ∨ t.kind = .parameter) {n : Nat}
    (hvalue : t.rowValue? ctx.parameters = some (.int n)) :
    readRows ctx clause (t :: rest) = .ok (n, rest) := by
  rw [readRows]
  rcases ht with ⟨k, hk⟩ | ht
  · obtain rfl : k = n := by simpa [Token.rowValue?, hk] using hvalue
    simp only [hk]
    rfl
  · have hget : ctx.parameters.get? t.text = some (.int n) := by
      simpa [Token.rowValue?, ht] using hvalue
    simp only [ht, ParseContext.parameter, hget]
    rfl

theorem readTop_of_derives (ctx : ParseContext) {top : Option Token}
    (h : Maybe (DerivesRows .top) tokens top rest)
    (hcounts : ∀ t ∈ top, ∃ n : Nat, t.rowValue? ctx.parameters = some (.int n))
    (hrest : Begins kinds rest) (htop : .keyword .top ∉ kinds) :
    ∃ n?, readTop ctx tokens = .ok (n?, rest) ∧ CountsRows ctx.parameters top n? := by
  cases h with
  | absent => exact ⟨none, by rw [readTop, hrest.skipKind htop], rfl⟩
  | present h =>
      obtain ⟨n, hn⟩ := hcounts _ rfl
      obtain ⟨hword, ht⟩ := h
      refine ⟨some n, ?_, congrArg some hn⟩
      rw [readTop, skipKind_of_eq hword]
      simp only [readRows_of_value .top ht hn]
      rfl

/-- LIMIT is read if TOP was not. -/
theorem readLimit_of_derives (ctx : ParseContext) {limit : Option Token} {n? : Option Nat}
    (h : Maybe (DerivesRows .limit) tokens limit [])
    (hcounts : ∀ t ∈ limit, ∃ n : Nat, t.rowValue? ctx.parameters = some (.int n))
    (hexclusive : n? = none ∨ limit = none) :
    ∃ m?, readLimit ctx n? tokens = .ok (m?, []) ∧
      ((limit = none ∧ m? = n?) ∨ (n? = none ∧ CountsRows ctx.parameters limit m?)) := by
  cases h with
  | absent => exact ⟨n?, rfl, .inl ⟨rfl, rfl⟩⟩
  | present h =>
      obtain ⟨n, hn⟩ := hcounts _ rfl
      obtain ⟨hword, ht⟩ := h
      obtain rfl : n? = none := hexclusive.resolve_right (by simp)
      refine ⟨some n, ?_, .inr ⟨rfl, congrArg some hn⟩⟩
      rw [readLimit, if_pos hword]
      simp only [readRows_of_value .limit ht hn]
      rfl

end Clauses

/-! ## Queries -/

theorem CountsRows.eq_none {values : Parameters} {n? : Option Nat}
    (h : CountsRows values none n?) : n? = none := by
  simpa [CountsRows] using h.symm

/-- What is derived and keeps the rules beyond the grammar is read, with
its meaning. -/
theorem readQuery_of_derives {registry : Registry} {values : Parameters} (stop : Position)
    (text : String) {tokens : List Token} {q : RawQuery} (h : DerivesQuery tokens q)
    (hadmitted : q.Admitted registry values) :
    readQuery ⟨registry, values, [], stop⟩ text tokens = .ok (q.query values text) := by
  obtain @⟨select, from_, name, t₁, t₂, t₃, t₄, t₅, t₆, top, limit, projection, alias?, where?,
    keys, hselect, htop, hprojection, hfrom, hname, halias, hwhere, hkeys, hlimit⟩ := h
  -- what each clause is followed by
  have hbegins₆ := hlimit.begins (begins_rows .limit) (begins_nil [])
  have hbegins₅ := hkeys.begins hbegins₆
  have hbegins₄ := hwhere.begins begins_where hbegins₅
  -- the number of rows
  obtain ⟨n?, hreadTop, hcounts⟩ := readTop_of_derives ⟨registry, values, [], stop⟩ htop
    (fun t ht => hadmitted.counts t (by simp [RawQuery.rows, Option.mem_def.mp ht]))
    hprojection.begins (by decide)
  have hexclusive : n? = none ∨ limit = none :=
    hadmitted.exclusive.imp_left fun hnone => (show top = none from hnone) ▸ hcounts |>.eq_none
  obtain ⟨m?, hreadLimit, hrows⟩ := readLimit_of_derives
    ⟨registry, values, aliasesOf name.text alias?, stop⟩ hlimit
    (fun t ht => hadmitted.counts t (by simp [RawQuery.rows, Option.mem_def.mp ht])) hexclusive
  obtain ⟨-, -, rfl⟩ := counts_of_read
    (q := ⟨top, projection, name, alias?, where?, keys, limit⟩) hcounts hrows
  have hreadWhere := readWhere_of_derives
    ⟨registry, values, aliasesOf name.text alias?, stop⟩ hwhere (hadmitted.where? _ _) hbegins₅
    (by decide) (by decide)
  have hreadKeys := readOrderBy_of_derives
    ⟨registry, values, aliasesOf name.text alias?, stop⟩ hkeys hbegins₆
  have hbuild : buildProjection (aliasesOf name.text alias?) projection = _ :=
    buildProjection_of_alone hadmitted.alone
  rw [readQuery]
  simp only [readKind_of_eq stop .select hselect, ok_bind, hreadTop,
    readProjection_of_derives hprojection (begins_cons (by simp [hfrom]) _),
    readKind_of_eq stop .source hfrom, readKind_of_eq stop .container hname,
    readAlias_of_derives halias hbegins₄ (by decide) (by decide),
    hbuild, hreadWhere, hreadKeys, hreadLimit]
  rfl

/-! ## Texts -/

/-- A mapping is a table under the full names. -/
def Parameters.ofFields (fields : List (String × Json)) : Parameters :=
  Table.ofEntries (fields.map fun f => (canonicalName f.1, f.2))

theorem Parameters.normalize_obj (fields : List (String × Json)) :
    normalize (.obj fields) = .ok (ofFields fields) := by
  rw [normalize]
  split
  · rename_i hblank
    rw [List.isEmpty_iff.mp (show fields.isEmpty = true from hblank)]
    rfl
  · rfl

section Texts

variable {registry : Registry} {text : String} {tokens : List Token} {stop : Position}

theorem parse_of_blank (given : Json) (hblank : isBlankText text = true) :
    Query.parse registry text given = .error (.text ⟨.emptyQuery, .start, none⟩) := by
  rw [Query.parse, if_pos hblank]
  rfl

/-- The tokens of a text that is not blank are read as a query. -/
theorem parse_of_tokens (htext : TokenList.ofText text = .ok ⟨tokens, stop⟩)
    (hblank : isBlankText text = false) (fields : List (String × Json)) :
    Query.parse registry text (.obj fields) =
      (readQuery ⟨registry, .ofFields fields, [], stop⟩ text tokens).mapError .text := by
  rw [Query.parse, hblank, htext, Parameters.normalize_obj]
  rfl

/-- **The parser accepts its grammar.** A text that divides into tokens
is parsed if and only if all its tokens together are derived as a query
that keeps the rules beyond the grammar; the query is the one that was
written. Any other text is refused with a parse error at one of its
tokens or behind the last. -/
theorem parse_eq_ok_iff (registry : Registry) (fields : List (String × Json))
    (htext : TokenList.ofText text = .ok ⟨tokens, stop⟩) :
    (∀ q, Query.parse registry text (.obj fields) = .ok q ↔
      ∃ raw, DerivesQuery tokens raw ∧ raw.Admitted registry (.ofFields fields) ∧
        raw.query (.ofFields fields) text = q) ∧
      ∀ refusal, Query.parse registry text (.obj fields) = .error refusal →
        ∃ e, refusal = .text e ∧ e.label = "ParseError" ∧
          (tokens ≠ [] → e.PointsInto stop tokens) := by
  cases hblank : isBlankText text with
  | true =>
      obtain ⟨_, hscan⟩ := TokenList.scan_of_blank hblank .start
      obtain ⟨rfl, -⟩ := (TokenList.mk.injEq ..).mp (Except.ok.inj (htext.symm.trans hscan))
      rw [parse_of_blank _ hblank]
      refine ⟨fun q => ⟨fun h => (by cases h), ?_⟩, ?_⟩
      · rintro ⟨raw, h, -⟩
        cases h
      · rintro _ ⟨⟩
        exact ⟨_, rfl, rfl, fun h => absurd rfl h⟩
  | false =>
      rw [parse_of_tokens htext hblank]
      have hyields := yields_readQuery registry (.ofFields fields) stop text tokens
      cases hread : readQuery ⟨registry, .ofFields fields, [], stop⟩ text tokens with
      | ok p =>
          obtain ⟨raw, hraw, hadmitted, rfl⟩ := hyields.of_ok hread
          refine ⟨fun q => ⟨?_, ?_⟩, fun _ h => by cases h⟩
          · rintro ⟨⟩
            exact ⟨raw, hraw, hadmitted, rfl⟩
          · rintro ⟨raw', hraw', hadmitted', rfl⟩
            rw [readQuery_of_derives stop text hraw' hadmitted'] at hread
            exact congrArg Except.ok (Except.ok.inj hread).symm
      | error e =>
          have hpoints := hyields.of_error hread
          refine ⟨fun q => ⟨fun h => (by cases h), ?_⟩, ?_⟩
          · rintro ⟨raw, hraw, hadmitted, -⟩
            rw [readQuery_of_derives stop text hraw hadmitted] at hread
            cases hread
          · rintro _ ⟨⟩
            refine ⟨e, rfl, ?_, fun _ => hpoints⟩
            rw [ParseError.label, hpoints.cause]
            rfl

end Texts

/-- Operators, a call and parameters, one of which stands for the number
of rows. -/
theorem parse_eq_ok_iff_limit :
    ∃ tokens stop raw, TokenList.ofText
        "SELECT c.a FROM c WHERE NOT c.a = 1 OR STARTSWITH(c.b, @p) LIMIT @n" =
          .ok ⟨tokens, stop⟩ ∧
      DerivesQuery tokens raw ∧
      raw.Admitted .standard (.ofFields [("p", .str "x"), ("n", .int 2)]) := by
  obtain ⟨⟨tokens, stop⟩, htext, -⟩ : ∃ ts, TokenList.ofText
      "SELECT c.a FROM c WHERE NOT c.a = 1 OR STARTSWITH(c.b, @p) LIMIT @n" = .ok ts ∧ true :=
    exists_ok_of_any (by decide +kernel)
  obtain ⟨q, hq, -⟩ : ∃ q, Query.parse .standard
      "SELECT c.a FROM c WHERE NOT c.a = 1 OR STARTSWITH(c.b, @p) LIMIT @n"
      (.obj [("p", .str "x"), ("n", .int 2)]) = .ok q ∧ true :=
    exists_ok_of_any (by decide +kernel)
  obtain ⟨raw, hraw, hadmitted, -⟩ :=
    ((parse_eq_ok_iff .standard [("p", .str "x"), ("n", .int 2)] htext).1 q).mp hq
  exact ⟨tokens, stop, raw, htext, hraw, hadmitted⟩

end DocStore
