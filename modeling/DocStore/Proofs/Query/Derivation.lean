import DocStore.Proofs.Query.Grammar
import DocStore.Proofs.Query.Reading

/-!
# What is read is derived

A parsing function either takes a phrase of its nonterminal off the
front of the tokens, with the meaning that the phrase has, or refuses
one of the tokens or their end (`Yields`). For expressions this is an
induction on the fuel, over all parsing functions at once
(`reads_derived`); the loops of AND and OR are again of one kind
(`IsChain`), and the statement about a loop is about the chain that
starts before it. The clauses follow one after the other, and with them
queries (`yields_readQuery`).

The proofs follow the parser, so that no error escapes: each step is a
`Yields`, and steps are composed by `Yields.bind`.
-/

namespace DocStore

/-! ## Outcomes -/

/-- The error is one of the grammar, at one of the tokens or at their
end. -/
structure ParseError.PointsInto (e : ParseError) (stop : Position) (tokens : List Token) :
    Prop where
  cause : e.cause.isLexical = false
  place : (e.position = stop ∧ e.token = none) ∨
    ∃ t ∈ tokens, e.position = t.position ∧ e.token = some t.text

/-- The outcome of reading the tokens: a result of which something
holds, or an error that points into the tokens. -/
def Yields {α : Type} (stop : Position) (tokens : List Token) (x : Except ParseError α)
    (good : α → Prop) : Prop :=
  EndsIn x good fun e => e.PointsInto stop tokens

section Outcomes

variable {α β : Type} {stop : Position} {tokens others : List Token}

theorem Yields.of_ok {x : Except ParseError α} {good : α → Prop} (h : Yields stop tokens x good)
    {a : α} (hx : x = .ok a) : good a :=
  EndsIn.of_ok h hx

theorem Yields.of_error {x : Except ParseError α} {good : α → Prop}
    (h : Yields stop tokens x good) {e : ParseError} (hx : x = .error e) :
    e.PointsInto stop tokens :=
  EndsIn.of_error h hx

theorem ParseError.PointsInto.mono {e : ParseError} (h : e.PointsInto stop tokens)
    (hsub : tokens ⊆ others) : e.PointsInto stop others :=
  ⟨h.cause, h.place.imp_right fun ⟨t, ht, hp⟩ => ⟨t, hsub ht, hp⟩⟩

/-- A step on part of the tokens. -/
theorem Yields.bind {x : Except ParseError α} {f : α → Except ParseError β} {good : α → Prop}
    {fine : β → Prop} (h : Yields stop others x good) (hsub : others ⊆ tokens)
    (hf : ∀ a, good a → Yields stop tokens (f a) fine) : Yields stop tokens (x >>= f) fine :=
  (EndsIn.mono h (fun _ ha => ha) fun _ he => he.mono hsub).bind hf

theorem Yields.mono {x : Except ParseError α} {good fine : α → Prop}
    (h : Yields stop others x good) (hsub : others ⊆ tokens) (hgood : ∀ a, good a → fine a) :
    Yields stop tokens x fine :=
  EndsIn.mono h hgood fun _ he => he.mono hsub

theorem yields_expectedAt (stop : Position) (what : Expectation) (tokens : List Token)
    (good : α → Prop) : Yields stop tokens (expectedAt stop what tokens) good := by
  cases tokens with
  | nil => exact ⟨rfl, .inl ⟨rfl, rfl⟩⟩
  | cons t rest => exact ⟨rfl, .inr ⟨t, List.mem_cons_self .., rfl, rfl⟩⟩

theorem yields_refusedAt (stop : Position) {t : Token} (ht : t ∈ tokens) {cause : ParseCause}
    (hcause : cause.isLexical = false) (good : α → Prop) :
    Yields stop tokens (refusedAt t cause) good :=
  ⟨hcause, .inr ⟨t, ht, rfl, rfl⟩⟩

theorem yields_readKind (stop : Position) (kind : TokenKind) (what : Expectation)
    (tokens : List Token) :
    Yields stop tokens (readKind stop kind what tokens) fun r =>
      tokens = r.1 :: r.2 ∧ r.1.kind = kind := by
  cases tokens with
  | nil => exact yields_expectedAt stop what [] _
  | cons t rest =>
      rw [readKind]
      split
      · rename_i ht
        exact ⟨rfl, ht⟩
      · exact yields_expectedAt stop what (t :: rest) _

end Outcomes

theorem skipKind_eq_some {kind : TokenKind} {tokens rest : List Token}
    (h : skipKind kind tokens = some rest) : ∃ t, tokens = t :: rest ∧ t.kind = kind := by
  cases tokens with
  | nil => cases h
  | cons t ts =>
      rw [skipKind] at h
      split at h
      · rename_i ht
        exact ⟨t, by rw [Option.some.inj h], ht⟩
      · cases h

/-! ## What a phrase leaves -/

/-- A phrase leaves the end of the tokens, and takes at least one. -/
def Shortens {α : Type} (phrase : List Token → α → List Token → Prop) : Prop :=
  ∀ tokens a rest, phrase tokens a rest → rest <:+ tokens ∧ rest.length < tokens.length

theorem Shortens.listed {α : Type} {phrase : List Token → α → List Token → Prop}
    (hphrase : Shortens phrase) : Shortens (Listed phrase) := by
  intro tokens as rest h
  induction h with
  | one h => exact hphrase _ _ _ h
  | more h hcomma hs ih =>
      obtain ⟨hsuffix, hlength⟩ := hphrase _ _ _ h
      rw [List.length_cons] at hlength
      exact ⟨ih.1.trans ((List.suffix_cons ..).trans hsuffix), by omega⟩

theorem Maybe.suffix {α : Type} {phrase : List Token → α → List Token → Prop}
    (hphrase : Shortens phrase) {tokens rest : List Token} {a? : Option α}
    (h : Maybe phrase tokens a? rest) : rest <:+ tokens := by
  cases h with
  | absent => exact List.suffix_refl _
  | present h => exact (hphrase _ _ _ h).1

theorem DerivesNames.suffix {tokens rest : List Token} {names : List String}
    (h : DerivesNames tokens names rest) : rest <:+ tokens := by
  induction h with
  | nil => exact List.suffix_refl _
  | cons hpoint hname h ih => exact ih.trans ((List.suffix_cons ..).trans (List.suffix_cons ..))

theorem shortens_path : Shortens DerivesPath := by
  rintro _ _ rest ⟨-, h⟩
  have hlength := h.suffix.length_le
  exact ⟨h.suffix.trans (List.suffix_cons ..), by rw [List.length_cons]; omega⟩

theorem shortens_derives (n : Nonterminal) : Shortens (Derives n) := by
  intro tokens e rest h
  induction h with
  | and_or h ih | not_and h ih | comparison_not h ih | operand_comparison h ih => exact ih
  | or hl hword hr ihl ihr | and hl hword hr ihl ihr | comparison hl hword hr ihl ihr =>
      have hlength := ihl.2
      rw [List.length_cons] at hlength
      exact ⟨ihr.1.trans ((List.suffix_cons ..).trans ihl.1), by omega⟩
  | not hword h ih =>
      exact ⟨ih.1.trans (List.suffix_cons ..), by rw [List.length_cons]; omega⟩
  | literal ht | parameter ht => exact ⟨List.suffix_cons .., by simp⟩
  | path h => exact shortens_path _ _ _ h
  | emptyCall hname hopening hclosing =>
      exact ⟨⟨[_, _, _], rfl⟩, by simp only [List.length_cons]; omega⟩
  | call hname hopening argument hargument hargs hclosing ih =>
      obtain ⟨hsuffix, hlength⟩ :=
        Shortens.listed (fun ts e rest h => ih ts e rest h) _ _ _ hargs
      refine ⟨(List.suffix_cons ..).trans
        (hsuffix.trans ((List.suffix_cons ..).trans (List.suffix_cons ..))), ?_⟩
      simp only [List.length_cons] at hlength ⊢
      omega
  | parentheses hopening h hclosing ih =>
      refine ⟨(List.suffix_cons ..).trans (ih.1.trans (List.suffix_cons ..)), ?_⟩
      have hlength := ih.2
      simp only [List.length_cons] at hlength ⊢
      omega

/-! ## Paths -/

theorem yields_readNames (stop : Position) (tokens : List Token) :
    Yields stop tokens (RawPath.readRest stop tokens) fun r =>
      DerivesNames tokens r.1 r.2 := by
  fun_induction RawPath.readRest stop tokens with
  | case1 d n tokens hd hn ih =>
      refine ih.bind (fun t ht => by simp [ht]) fun r hr => ?_
      exact .cons hd hn hr
  | case2 d n tokens hd hn =>
      exact (yields_expectedAt stop _ (n :: tokens) _).mono (List.subset_cons_self ..)
        fun _ h => h
  | case3 d n tokens hd => exact .nil
  | case4 d hd =>
      exact (yields_expectedAt stop _ [] _).mono (List.nil_subset _) fun _ h => h
  | case5 d hd => exact .nil
  | case6 => exact .nil

theorem yields_readPath (stop : Position) (what : Expectation) (tokens : List Token) :
    Yields stop tokens (RawPath.read stop what tokens) fun r => DerivesPath tokens r.1 r.2 := by
  refine (yields_readKind stop .identifier what tokens).bind (List.Subset.refl _) ?_
  rintro ⟨start, ts⟩ ⟨rfl, hstart⟩
  refine (yields_readNames stop ts).bind (List.subset_cons_self ..) fun r hr => ?_
  exact .mk hstart hr

/-! ## Expressions -/

namespace RawExpr

theorem parametersAll_eq_flatMap (es : List RawExpr) :
    parametersAll es = es.flatMap parameters := by
  induction es with
  | nil => rfl
  | cons e es ih => rw [parametersAll, ih, List.flatMap_cons]

theorem callsAll_eq_flatMap (es : List RawExpr) : callsAll es = es.flatMap calls := by
  induction es with
  | nil => rfl
  | cons e es ih => rw [callsAll, ih, List.flatMap_cons]

theorem exprAll_eq_map (values : Parameters) (aliases : List String) (es : List RawExpr) :
    exprAll values aliases es = es.map (expr values aliases) := by
  induction es with
  | nil => rfl
  | cons e es ih => rw [exprAll, ih, List.map_cons]

/-- The parameters of the expression have values, and its calls fit the
functions. -/
structure Admitted (ctx : ParseContext) (e : RawExpr) : Prop where
  bound : ∀ t ∈ e.parameters, (ctx.parameters.get? t.text).isSome = true
  registered : ∀ call ∈ e.calls, ctx.registry.Takes call

variable {ctx : ParseContext}

theorem admitted_literal (t : Token) : (literal t).Admitted ctx :=
  ⟨by simp [parameters], by simp [calls]⟩

theorem admitted_path (p : RawPath) : (path p).Admitted ctx :=
  ⟨by simp [parameters], by simp [calls]⟩

theorem admitted_parameter_iff {t : Token} :
    (parameter t).Admitted ctx ↔ (ctx.parameters.get? t.text).isSome = true :=
  ⟨fun h => h.bound t (by simp [parameters]),
    fun h => ⟨by simpa [parameters] using h, by simp [calls]⟩⟩

theorem admitted_not_iff {word : Token} {e : RawExpr} :
    (not word e).Admitted ctx ↔ e.Admitted ctx :=
  ⟨fun h => ⟨h.bound, h.registered⟩, fun h => ⟨h.bound, h.registered⟩⟩

theorem admitted_binary_iff {op : BinaryOp} {sign : Token} {l r : RawExpr} :
    (binary op sign l r).Admitted ctx ↔ l.Admitted ctx ∧ r.Admitted ctx := by
  refine ⟨fun h => ⟨⟨?_, ?_⟩, ?_, ?_⟩, fun ⟨hl, hr⟩ => ⟨?_, ?_⟩⟩
  · exact fun t ht => h.bound t (List.mem_append_left _ ht)
  · exact fun c hc => h.registered c (List.mem_append_left _ hc)
  · exact fun t ht => h.bound t (List.mem_append_right _ ht)
  · exact fun c hc => h.registered c (List.mem_append_right _ hc)
  · intro t ht
    exact (List.mem_append.mp ht).elim (hl.bound t) (hr.bound t)
  · intro c hc
    exact (List.mem_append.mp hc).elim (hl.registered c) (hr.registered c)

theorem admitted_call_iff {name : Token} {args : List RawExpr} :
    (call name args).Admitted ctx ↔
      ctx.registry.Takes (name, args.length) ∧ ∀ e ∈ args, e.Admitted ctx := by
  refine ⟨fun h => ⟨h.registered _ (List.mem_cons_self ..), fun e he => ⟨?_, ?_⟩⟩,
    fun ⟨hcall, hargs⟩ => ⟨?_, ?_⟩⟩
  · intro t ht
    refine h.bound t ?_
    rw [parameters, parametersAll_eq_flatMap]
    exact List.mem_flatMap_of_mem he ht
  · intro c hc
    refine h.registered c (List.mem_cons_of_mem _ ?_)
    rw [callsAll_eq_flatMap]
    exact List.mem_flatMap_of_mem he hc
  · intro t ht
    rw [parameters, parametersAll_eq_flatMap] at ht
    obtain ⟨e, he, ht⟩ := List.mem_flatMap.mp ht
    exact (hargs e he).bound t ht
  · intro c hc
    rw [calls, callsAll_eq_flatMap] at hc
    rcases List.mem_cons.mp hc with rfl | hc
    · exact hcall
    · obtain ⟨e, he, hc⟩ := List.mem_flatMap.mp hc
      exact (hargs e he).registered c hc

end RawExpr

/-- A phrase of the nonterminal, with the meaning that was read and what
is left behind it. -/
def Phrase (ctx : ParseContext) (n : Nonterminal) (tokens : List Token) (r : Parsed Expr) :
    Prop :=
  ∃ raw, Derives n tokens raw r.2 ∧ raw.Admitted ctx ∧
    raw.expr ctx.parameters ctx.aliases = r.1

/-- The arguments of a call. -/
def Arguments (ctx : ParseContext) (tokens : List Token) (r : Parsed (List Expr)) : Prop :=
  ∃ raws, Listed (Derives .or) tokens raws r.2 ∧ (∀ raw ∈ raws, raw.Admitted ctx) ∧
    RawExpr.exprAll ctx.parameters ctx.aliases raws = r.1

section Expressions

variable {ctx : ParseContext} {n : Nonterminal} {tokens rest : List Token}

theorem Phrase.lift {m : Nonterminal} {r : Parsed Expr} (h : Phrase ctx n tokens r)
    (hrule : ∀ e, Derives n tokens e r.2 → Derives m tokens e r.2) : Phrase ctx m tokens r := by
  obtain ⟨raw, hraw, hadmitted, hexpr⟩ := h
  exact ⟨raw, hrule raw hraw, hadmitted, hexpr⟩

theorem Phrase.subset {r : Parsed Expr} (h : Phrase ctx n tokens r) : r.2 ⊆ tokens := by
  obtain ⟨raw, hraw, -⟩ := h
  exact (shortens_derives n _ _ _ hraw).1.subset

/-- Two phrases with an operator between them. -/
theorem Phrase.binary {m k : Nonterminal} {op : BinaryOp} {sign : Token} {more : List Token}
    {l : Expr} {r : Parsed Expr} (hl : Phrase ctx m tokens (l, sign :: more))
    (hr : Phrase ctx k more r)
    (hrule : ∀ a b, Derives m tokens a (sign :: more) → Derives k more b r.2 →
      Derives n tokens (.binary op sign a b) r.2) :
    Phrase ctx n tokens (.binary op l r.1 sign.position, r.2) := by
  obtain ⟨a, ha, hadmitted, rfl⟩ := hl
  obtain ⟨b, hb, hadmitted', hexpr⟩ := hr
  exact ⟨.binary op sign a b, hrule a b ha hb,
    RawExpr.admitted_binary_iff.mpr ⟨hadmitted, hadmitted'⟩, by rw [RawExpr.expr, hexpr]⟩

/-! ### Chains -/

section Chain

variable {word : Keyword} {op : BinaryOp} {inner outer : Nonterminal}
  {operand read : Nat → List Token → Except ParseError (Parsed Expr)}
  {loop : Nat → Expr → List Token → Except ParseError (Parsed Expr)} {F : Nat}

/-- The loop goes on with a chain that starts before it. -/
theorem IsChain.yields_loop (hchain : IsChain word op operand read loop)
    (hrule : ∀ {tokens more rest : List Token} {w : Token} {l r : RawExpr},
      Derives outer tokens l (w :: more) → w.kind = .keyword word → Derives inner more r rest →
        Derives outer tokens (.binary op w l r) rest)
    (hoperand : ∀ tokens, Yields ctx.stop tokens (operand F tokens) (Phrase ctx inner tokens))
    (hloop : ∀ l tokens rest, Phrase ctx outer tokens (l, rest) →
      Yields ctx.stop rest (loop F l rest) (Phrase ctx outer tokens))
    (l : Expr) (tokens rest : List Token) (hl : Phrase ctx outer tokens (l, rest)) :
    Yields ctx.stop rest (loop (F + 1) l rest) (Phrase ctx outer tokens) := by
  cases rest with
  | nil =>
      rw [hchain.stop F l (by simp)]
      exact hl
  | cons t rest =>
      by_cases ht : t.kind = .keyword word
      · rw [hchain.go F l rest ht]
        refine (hoperand rest).bind (List.subset_cons_self ..) fun r hr => ?_
        have hbinary : Phrase ctx outer tokens (.binary op l r.1 t.position, r.2) :=
          hl.binary hr fun a b ha hb => hrule ha ht hb
        exact (hloop _ tokens r.2 hbinary).mono
          (List.Subset.trans hr.subset (List.subset_cons_self ..)) fun _ h => h
      · rw [hchain.stop F l (by simpa using ht)]
        exact hl

/-- A chain starts with one operand. -/
theorem IsChain.yields_read (hchain : IsChain word op operand read loop)
    (hrule : ∀ {tokens rest : List Token} {e : RawExpr},
      Derives inner tokens e rest → Derives outer tokens e rest)
    (hoperand : ∀ tokens, Yields ctx.stop tokens (operand F tokens) (Phrase ctx inner tokens))
    (hloop : ∀ l tokens rest, Phrase ctx outer tokens (l, rest) →
      Yields ctx.stop rest (loop F l rest) (Phrase ctx outer tokens)) (tokens : List Token) :
    Yields ctx.stop tokens (read (F + 1) tokens) (Phrase ctx outer tokens) := by
  rw [hchain.start]
  refine (hoperand tokens).bind (List.Subset.refl _) fun r hr => ?_
  exact (hloop r.1 tokens r.2 (hr.lift fun e => hrule)).mono hr.subset fun _ h => h

end Chain

/-! ### All parsing functions -/

/-- With this fuel every parsing function reads phrases of its
nonterminal. -/
structure ReadsPhrases (ctx : ParseContext) (F : Nat) : Prop where
  or : ∀ tokens, Yields ctx.stop tokens (Expr.readOr ctx F tokens) (Phrase ctx .or tokens)
  orRest : ∀ l tokens rest, Phrase ctx .or tokens (l, rest) →
    Yields ctx.stop rest (Expr.readOrRest ctx F l rest) (Phrase ctx .or tokens)
  and : ∀ tokens, Yields ctx.stop tokens (Expr.readAnd ctx F tokens) (Phrase ctx .and tokens)
  andRest : ∀ l tokens rest, Phrase ctx .and tokens (l, rest) →
    Yields ctx.stop rest (Expr.readAndRest ctx F l rest) (Phrase ctx .and tokens)
  not : ∀ tokens, Yields ctx.stop tokens (Expr.readNot ctx F tokens) (Phrase ctx .not tokens)
  comparison : ∀ tokens,
    Yields ctx.stop tokens (Expr.readComparison ctx F tokens) (Phrase ctx .comparison tokens)
  operand : ∀ tokens,
    Yields ctx.stop tokens (Expr.readOperand ctx F tokens) (Phrase ctx .operand tokens)
  call : ∀ name opening tokens, name.kind = .identifier → opening.kind = .sign .leftParen →
    Yields ctx.stop (name :: tokens) (Expr.readCall ctx F name tokens)
      (Phrase ctx .operand (name :: opening :: tokens))
  args : ∀ tokens,
    Yields ctx.stop tokens (Expr.readArgs ctx F tokens) (Arguments ctx tokens)

theorem readsPhrases_zero : ReadsPhrases ctx 0 where
  or tokens := yields_expectedAt _ _ tokens _
  orRest _ _ rest _ := yields_expectedAt _ _ rest _
  and tokens := yields_expectedAt _ _ tokens _
  andRest _ _ rest _ := yields_expectedAt _ _ rest _
  not tokens := yields_expectedAt _ _ tokens _
  comparison tokens := yields_expectedAt _ _ tokens _
  operand tokens := yields_expectedAt _ _ tokens _
  call _ _ tokens _ _ :=
    (yields_expectedAt _ _ tokens _).mono (List.subset_cons_self ..) fun _ h => h
  args tokens := yields_expectedAt _ _ tokens _

variable {F : Nat}

theorem ReadsPhrases.readNot (h : ReadsPhrases ctx F) (tokens : List Token) :
    Yields ctx.stop tokens (Expr.readNot ctx (F + 1) tokens) (Phrase ctx .not tokens) := by
  have hcomparison : Yields ctx.stop tokens (Expr.readComparison ctx F tokens)
      (Phrase ctx .not tokens) :=
    (h.comparison tokens).mono (List.Subset.refl _) fun r hr => hr.lift fun e => .comparison_not
  cases tokens with
  | nil => exact hcomparison
  | cons t rest =>
      rw [Expr.readNot]
      split
      · rename_i ht
        refine (h.not rest).bind (List.subset_cons_self ..) ?_
        rintro ⟨_, left⟩ ⟨raw, hraw, hadmitted, rfl⟩
        exact ⟨.not t raw, .not ht hraw, RawExpr.admitted_not_iff.mpr hadmitted, rfl⟩
      · exact hcomparison

theorem comparison?_eq_some {t : Token} {c : Comparison} (h : Expr.comparison? t = some c) :
    t.kind = .comparison c := by
  unfold Expr.comparison? at h
  split at h
  · rename_i hk
    rw [hk, Option.some.inj h]
  · cases h

theorem ReadsPhrases.readComparison (h : ReadsPhrases ctx F) (tokens : List Token) :
    Yields ctx.stop tokens (Expr.readComparison ctx (F + 1) tokens)
      (Phrase ctx .comparison tokens) := by
  rw [Expr.readComparison]
  refine (h.operand tokens).bind (List.Subset.refl _) ?_
  rintro ⟨l, rest⟩ hl
  have hsingle : Phrase ctx .comparison tokens (l, rest) :=
    hl.lift fun e => .operand_comparison
  cases rest with
  | nil => exact hsingle
  | cons t rest =>
      dsimp only
      split
      · exact hsingle
      · rename_i c hc
        have hsub : rest ⊆ tokens := List.Subset.trans (List.subset_cons_self ..) hl.subset
        refine (h.operand rest).bind hsub fun r hr => ?_
        exact hl.binary hr fun a b ha hb => .comparison ha (comparison?_eq_some hc) hb

theorem yields_parameter (ctx : ParseContext) {t : Token} (ht : t ∈ tokens) :
    Yields ctx.stop tokens (ctx.parameter t) fun v => ctx.parameters.get? t.text = some v := by
  unfold ParseContext.parameter
  split
  · rename_i v hv
    exact hv
  · exact yields_refusedAt _ ht rfl _

theorem ReadsPhrases.readOperand (h : ReadsPhrases ctx F) (tokens : List Token) :
    Yields ctx.stop tokens (Expr.readOperand ctx (F + 1) tokens)
      (Phrase ctx .operand tokens) := by
  cases tokens with
  | nil => exact yields_expectedAt _ _ [] _
  | cons t rest =>
      rw [Expr.readOperand]
      split
      · rename_i v hv
        refine ⟨.literal t, .literal (by rw [hv]; rfl), RawExpr.admitted_literal t, ?_⟩
        rw [RawExpr.expr, hv]
      · split
        · rename_i ht
          refine (yields_parameter ctx (List.mem_cons_self ..)).bind (List.Subset.refl _)
            fun v hv => ?_
          refine ⟨.parameter t, .parameter ht, RawExpr.admitted_parameter_iff.mpr (by rw [hv]; rfl),
            ?_⟩
          rw [RawExpr.expr, hv]
        · rename_i ht
          refine (h.or rest).bind (List.subset_cons_self ..) ?_
          rintro ⟨_, left⟩ ⟨raw, hraw, hadmitted, rfl⟩
          have hsub : left ⊆ t :: rest :=
            List.Subset.trans (shortens_derives .or _ _ _ hraw).1.subset
              (List.subset_cons_self ..)
          refine (yields_readKind _ _ _ left).bind hsub ?_
          rintro ⟨closing, left⟩ ⟨rfl, hclosing⟩
          exact ⟨raw, .parentheses ht hraw hclosing, hadmitted, rfl⟩
        · rename_i ht
          split
          · rename_i inner hinner
            obtain ⟨opening, rfl, hopening⟩ := skipKind_eq_some hinner
            exact (h.call t opening inner ht hopening).mono
              (List.cons_subset_cons t (List.subset_cons_self ..)) fun _ h => h
          · refine (yields_readPath _ _ (t :: rest)).bind (List.Subset.refl _) ?_
            rintro ⟨path, left⟩ hpath
            refine ⟨.path path, .path hpath, RawExpr.admitted_path path, ?_⟩
            obtain ⟨-, -⟩ := hpath
            rfl
        · exact yields_expectedAt _ _ (t :: rest) _

theorem ReadsPhrases.readArgs (h : ReadsPhrases ctx F) (tokens : List Token) :
    Yields ctx.stop tokens (Expr.readArgs ctx (F + 1) tokens) (Arguments ctx tokens) := by
  rw [Expr.readArgs]
  refine (h.or tokens).bind (List.Subset.refl _) ?_
  rintro ⟨e, rest⟩ ⟨raw, hraw, hadmitted, rfl⟩
  dsimp only
  split
  · exact ⟨[raw], .one hraw, by simpa using hadmitted, rfl⟩
  · rename_i more hmore
    obtain ⟨comma, rfl, hcomma⟩ := skipKind_eq_some hmore
    have hsub : more ⊆ tokens :=
      List.Subset.trans (List.subset_cons_self ..) (shortens_derives .or _ _ _ hraw).1.subset
    refine (h.args more).bind hsub ?_
    rintro ⟨es, left⟩ ⟨raws, hraws, hall, rfl⟩
    exact ⟨raw :: raws, .more hraw hcomma hraws, by simpa using ⟨hadmitted, hall⟩, rfl⟩

theorem ReadsPhrases.readCall (h : ReadsPhrases ctx F) (name opening : Token)
    (tokens : List Token) (hname : name.kind = .identifier)
    (hopening : opening.kind = .sign .leftParen) :
    Yields ctx.stop (name :: tokens) (Expr.readCall ctx (F + 1) name tokens)
      (Phrase ctx .operand (name :: opening :: tokens)) := by
  rw [Expr.readCall]
  dsimp only
  split
  · exact yields_refusedAt _ (List.mem_cons_self ..) rfl _
  · rename_i f hf
    -- the arguments are read, or there are none in front of the closing parenthesis
    have hclose : ∀ r : Parsed (List Expr), r = ([], tokens) ∨ Arguments ctx tokens r →
        Yields ctx.stop (name :: tokens)
          (readKind ctx.stop (.sign .rightParen) (.closingCall name.text.upperCase) r.2 >>=
            fun c => if f.arity = r.1.length then
              pure (.call name.text.upperCase r.1 name.position, c.2)
            else refusedAt name (.wrongArity name.text.upperCase f.arity r.1.length))
          (Phrase ctx .operand (name :: opening :: tokens)) := by
      rintro ⟨args, rest⟩ hread
      have hsub : rest ⊆ name :: tokens := by
        rcases hread with hread | ⟨raws, hraws, -⟩
        · obtain ⟨rfl, rfl⟩ := Prod.mk.inj hread
          exact List.subset_cons_self ..
        · exact List.Subset.trans ((shortens_derives .or).listed _ _ _ hraws).1.subset
            (List.subset_cons_self ..)
      refine (yields_readKind _ _ _ rest).bind hsub ?_
      rintro ⟨closing, left⟩ ⟨rfl, hclosing⟩
      dsimp only
      split
      · rename_i harity
        rcases hread with hread | ⟨raws, hraws, hall, rfl⟩
        · obtain ⟨rfl, rfl⟩ := Prod.mk.inj hread
          exact ⟨.call name [], .emptyCall hname hopening hclosing,
            RawExpr.admitted_call_iff.mpr ⟨⟨f, hf, harity⟩, by simp⟩, rfl⟩
        · refine ⟨.call name raws,
            .call hname hopening (Derives .or) (fun _ _ _ h => h) hraws hclosing,
            RawExpr.admitted_call_iff.mpr ⟨⟨f, hf, ?_⟩, hall⟩, rfl⟩
          rw [harity, RawExpr.exprAll_eq_map, List.length_map]
      · exact yields_refusedAt _ (List.mem_cons_self ..) rfl _
    split
    · exact hclose ([], tokens) (.inl rfl)
    · exact (h.args tokens).bind (List.subset_cons_self ..) fun r hr => hclose r (.inr hr)

/-- What is read is derived, whatever the fuel. -/
theorem readsPhrases (ctx : ParseContext) (F : Nat) : ReadsPhrases ctx F := by
  induction F with
  | zero => exact readsPhrases_zero
  | succ F ih =>
      exact {
        or := (isChain_or ctx).yields_read .and_or ih.and ih.orRest
        orRest := (isChain_or ctx).yields_loop .or ih.and ih.orRest
        and := (isChain_and ctx).yields_read .not_and ih.not ih.andRest
        andRest := (isChain_and ctx).yields_loop .and ih.not ih.andRest
        not := ih.readNot
        comparison := ih.readComparison
        operand := ih.readOperand
        call := ih.readCall
        args := ih.readArgs }

end Expressions

/-! ## Clauses -/

section Clauses

variable {ctx : ParseContext} {stop : Position} {tokens rest : List Token}

theorem yields_readAs (stop : Position) (what : Expectation) (tokens : List Token) :
    Yields stop tokens (readAs stop what tokens) fun r => Maybe DerivesAs tokens r.1 r.2 := by
  unfold readAs
  split
  · exact .absent
  · rename_i more hmore
    obtain ⟨word, rfl, hword⟩ := skipKind_eq_some hmore
    refine (yields_readKind stop .identifier what more).bind (List.subset_cons_self ..) ?_
    rintro ⟨name, left⟩ ⟨rfl, hname⟩
    exact .present (.mk hword hname)

theorem yields_readRowValue (ctx : ParseContext) (clause : RowClause) {t : Token}
    (rest : List Token) :
    Yields ctx.stop (t :: rest) (readRowValue ctx clause t) fun v =>
      ((∃ n, t.kind = .integer n) ∨ t.kind = .parameter) ∧
        t.rowValue? ctx.parameters = some v := by
  unfold readRowValue Token.rowValue?
  split
  · rename_i n hn
    exact ⟨.inl ⟨n, hn⟩, by rw [hn]⟩
  · rename_i ht
    refine (yields_parameter ctx (List.mem_cons_self ..)).mono (List.Subset.refl _)
      fun v hv => ⟨.inr ht, ?_⟩
    rw [ht, hv]
  · exact ⟨rfl, .inr ⟨t, List.mem_cons_self .., rfl, rfl⟩⟩

theorem yields_countRows {stop : Position} (clause : RowClause) {t : Token} (v : Json)
    (rest : List Token) :
    Yields stop (t :: rest) (countRows clause t v) fun n => v = .int n := by
  unfold countRows
  split
  · rfl
  · exact yields_refusedAt _ (List.mem_cons_self ..) rfl _

/-- A number of rows behind the word of its clause. -/
theorem yields_readRows (ctx : ParseContext) (clause : RowClause) (tokens : List Token) :
    Yields ctx.stop tokens (readRows ctx clause tokens) fun r =>
      ∃ t, tokens = t :: r.2 ∧ ((∃ n, t.kind = .integer n) ∨ t.kind = .parameter) ∧
        t.rowValue? ctx.parameters = some (.int r.1) := by
  cases tokens with
  | nil => exact yields_expectedAt _ _ [] _
  | cons t rest =>
      rw [readRows_cons]
      refine (yields_readRowValue ctx clause rest).bind (List.Subset.refl _) ?_
      rintro v ⟨ht, hv⟩
      refine (yields_countRows clause v rest).bind (List.Subset.refl _) ?_
      rintro n rfl
      exact ⟨t, rfl, ht, hv⟩

/-- The tokens of a clause that may be left out stand for its number of
rows. -/
def CountsRows (values : Parameters) (t? : Option Token) (n? : Option Nat) : Prop :=
  t?.map (·.rowValue? values) = n?.map fun n : Nat => some (.int n)

theorem yields_readTop (ctx : ParseContext) (tokens : List Token) :
    Yields ctx.stop tokens (readTop ctx tokens) fun r =>
      ∃ top, Maybe (DerivesRows .top) tokens top r.2 ∧ CountsRows ctx.parameters top r.1 := by
  unfold readTop
  split
  · exact ⟨none, .absent, rfl⟩
  · rename_i more hmore
    obtain ⟨word, rfl, hword⟩ := skipKind_eq_some hmore
    refine (yields_readRows ctx .top more).bind (List.subset_cons_self ..) ?_
    rintro ⟨n, left⟩ ⟨t, rfl, ht, hvalue⟩
    exact ⟨some t, .present (.mk hword ht), congrArg some hvalue⟩

/-- LIMIT takes the place of TOP, which must not be there. -/
theorem yields_readLimit (ctx : ParseContext) (top : Option Nat) (tokens : List Token) :
    Yields ctx.stop tokens (readLimit ctx top tokens) fun r =>
      ∃ limit, Maybe (DerivesRows .limit) tokens limit r.2 ∧
        ((limit = none ∧ r.1 = top) ∨ (top = none ∧ CountsRows ctx.parameters limit r.1)) := by
  cases tokens with
  | nil => exact ⟨none, .absent, .inl ⟨rfl, rfl⟩⟩
  | cons t rest =>
      rw [readLimit]
      split
      · rename_i ht
        split
        · exact yields_refusedAt _ (List.mem_cons_self ..) rfl _
        · rename_i htop
          refine (yields_readRows ctx .limit rest).bind (List.subset_cons_self ..) ?_
          rintro ⟨n, left⟩ ⟨u, rfl, hu, hvalue⟩
          exact ⟨some u, .present (.mk ht hu),
            .inr ⟨by simpa using htop, congrArg some hvalue⟩⟩
      · exact ⟨none, .absent, .inl ⟨rfl, rfl⟩⟩

/-! ### Lists -/

section Lists

variable {α β : Type} {step : List Token → Except ParseError (Parsed α)}
  {loop : Nat → List Token → Except ParseError (Parsed (List α))}
  {phrase : List Token → α → List Token → Prop}

/-- Entries are read as a list of phrases. -/
theorem ReadsList.yields (hloop : ReadsList step loop) {what : Expectation}
    (hzero : ∀ tokens, loop 0 tokens = expectedAt stop what tokens)
    (hphrase : Shortens phrase)
    (hstep : ∀ tokens, Yields stop tokens (step tokens) fun r => phrase tokens r.1 r.2)
    (F : Nat) (tokens : List Token) :
    Yields stop tokens (loop F tokens) fun r => Listed phrase tokens r.1 r.2 := by
  induction F generalizing tokens with
  | zero =>
      rw [hzero]
      exact yields_expectedAt stop what tokens _
  | succ F ih =>
      rw [hloop]
      refine (hstep tokens).bind (List.Subset.refl _) ?_
      rintro ⟨a, rest⟩ ha
      dsimp only
      split
      · exact .one ha
      · rename_i more hmore
        obtain ⟨comma, rfl, hcomma⟩ := skipKind_eq_some hmore
        have hsub : more ⊆ tokens :=
          List.Subset.trans (List.subset_cons_self ..) (hphrase _ _ _ ha).1.subset
        exact (ih more).bind hsub fun r hr => .more ha hcomma hr

/-- Entries that were changed one by one. -/
theorem Listed.exists_map {f : β → α} {whole : List Token → β → List Token → Prop}
    (hphrase : ∀ tokens a rest, phrase tokens a rest → ∃ b, whole tokens b rest ∧ f b = a)
    {as : List α} (h : Listed phrase tokens as rest) :
    ∃ bs, Listed whole tokens bs rest ∧ bs.map f = as := by
  induction h with
  | one h =>
      obtain ⟨b, hb, rfl⟩ := hphrase _ _ _ h
      exact ⟨[b], .one hb, rfl⟩
  | more h hcomma hs ih =>
      obtain ⟨b, hb, rfl⟩ := hphrase _ _ _ h
      obtain ⟨bs, hbs, rfl⟩ := ih
      exact ⟨b :: bs, .more hb hcomma hbs, rfl⟩

/-- What each entry starts with is among the tokens. -/
theorem Listed.mem_of_phrase (hphrase : Shortens phrase) (start : α → Token)
    (hstart : ∀ tokens a rest, phrase tokens a rest → start a ∈ tokens) {as : List α}
    (h : Listed phrase tokens as rest) : ∀ a ∈ as, start a ∈ tokens := by
  induction h with
  | one h => simpa using hstart _ _ _ h
  | more h hcomma hs ih =>
      intro a ha
      rcases List.mem_cons.mp ha with rfl | ha
      · exact hstart _ _ _ h
      · exact (hphrase _ _ _ h).1.subset (List.mem_cons_of_mem _ (ih a ha))

end Lists

/-! ### Projection -/

theorem shortens_as : Shortens DerivesAs := by
  rintro _ _ rest ⟨-, -⟩
  exact ⟨⟨[_, _], rfl⟩, by simp only [List.length_cons]; omega⟩

theorem shortens_item : Shortens DerivesItem := by
  rintro tokens _ rest ⟨hpath, halias⟩
  obtain ⟨hsuffix, hlength⟩ := shortens_path _ _ _ hpath
  have hrest := Maybe.suffix shortens_as halias
  have := hrest.length_le
  exact ⟨hrest.trans hsuffix, by omega⟩

theorem DerivesProjection.suffix {projection : Option (List RawItem)}
    (h : DerivesProjection tokens projection rest) : rest <:+ tokens := by
  cases h with
  | star ht => exact List.suffix_cons ..
  | items h => exact (shortens_item.listed _ _ _ h).1

theorem yields_readItem (stop : Position) (tokens : List Token) :
    Yields stop tokens (readItem stop tokens) fun r => DerivesItem tokens r.1 r.2 := by
  refine (yields_readPath stop .projection tokens).bind (List.Subset.refl _) ?_
  rintro ⟨path, rest⟩ hpath
  have hsub : rest ⊆ tokens := (shortens_path _ _ _ hpath).1.subset
  exact (yields_readAs stop .outputName rest).bind hsub fun r hr => .mk hpath hr

theorem yields_readProjection (stop : Position) (tokens : List Token) :
    Yields stop tokens (readProjection stop tokens) fun r =>
      DerivesProjection tokens r.1 r.2 := by
  unfold readProjection
  split
  · rename_i rest hrest
    obtain ⟨t, rfl, ht⟩ := skipKind_eq_some hrest
    exact .star ht
  · refine ((readsList_readItems stop).yields (fun _ => rfl) shortens_item (yields_readItem stop)
      _ tokens).bind (List.Subset.refl _) fun r hr => ?_
    exact .items hr

/-- Selected paths start with tokens of the projection. -/
theorem DerivesProjection.mem_start {items : List RawItem}
    (h : DerivesProjection tokens (some items) rest) :
    ∀ item ∈ items, item.path.start ∈ tokens := by
  cases h with
  | items h =>
      refine h.mem_of_phrase shortens_item (·.path.start) ?_
      rintro _ _ _ ⟨⟨-, -⟩, -⟩
      exact List.mem_cons_self ..

/-- The whole document beside other paths is refused, everything else
has its meaning. -/
theorem yields_buildProjection (stop : Position) (aliases : List String)
    {projection : Option (List RawItem)}
    (hstart : ∀ items, projection = some items → ∀ item ∈ items, item.path.start ∈ tokens) :
    Yields stop tokens (buildProjection aliases projection) fun p =>
      SelectsAlone aliases projection ∧ p = projectionOf aliases projection := by
  unfold buildProjection
  split
  · exact ⟨fun items h => (by cases h), rfl⟩
  · rename_i item
    refine ⟨fun items h _ => by rw [← Option.some.inj h]; rfl, ?_⟩
    simp [projectionOf]
  · rename_i items hitems
    split
    · rename_i item hfind
      exact yields_refusedAt stop (hstart items rfl item (List.mem_of_find?_eq_some hfind)) rfl _
    · rename_i hfind
      have hnone : ∀ item ∈ items, ¬ item.isWhole aliases = true := by
        simpa [List.find?_eq_none] using hfind
      refine ⟨?_, ?_⟩
      · rintro _ ⟨⟩ ⟨item, hitem, hwhole⟩
        exact absurd hwhole (hnone item hitem)
      · have hany : items.any (·.isWhole aliases) = false := by
          simpa [List.any_eq_false] using hnone
        rw [projectionOf, hany]
        rfl

/-! ### Source, condition and order -/

theorem shortens_alias : Shortens DerivesAlias := by
  rintro tokens name rest (h | h)
  · exact shortens_as _ _ _ h
  · exact ⟨List.suffix_cons .., by simp⟩

theorem yields_readAlias (stop : Position) (tokens : List Token) :
    Yields stop tokens (readAlias stop tokens) fun r =>
      Maybe DerivesAlias tokens r.1 r.2 := by
  have hnamed : Yields stop tokens (readAs stop .sourceAlias tokens) fun r =>
      Maybe DerivesAlias tokens r.1 r.2 := by
    refine (yields_readAs stop .sourceAlias tokens).mono (List.Subset.refl _) ?_
    rintro ⟨name?, rest⟩ (_ | h)
    · exact .absent
    · exact .present (.named h)
  unfold readAlias
  split
  · split
    · rename_i ht
      exact .present (.bare ht)
    · exact .absent
  · exact hnamed

theorem shortens_where : Shortens DerivesWhere := by
  rintro _ e rest ⟨-, h⟩
  obtain ⟨hsuffix, hlength⟩ := shortens_derives .or _ _ _ h
  exact ⟨hsuffix.trans (List.suffix_cons ..), by rw [List.length_cons]; omega⟩

theorem yields_readWhere (ctx : ParseContext) (tokens : List Token) :
    Yields ctx.stop tokens (readWhere ctx tokens) fun r =>
      ∃ where?, Maybe DerivesWhere tokens where? r.2 ∧ (∀ e ∈ where?, e.Admitted ctx) ∧
        r.1 = where?.map (·.expr ctx.parameters ctx.aliases) := by
  unfold readWhere
  split
  · exact ⟨none, .absent, by simp, rfl⟩
  · rename_i more hmore
    obtain ⟨word, rfl, hword⟩ := skipKind_eq_some hmore
    refine ((readsPhrases ctx _).or more).bind (List.subset_cons_self ..) ?_
    rintro ⟨_, left⟩ ⟨raw, hraw, hadmitted, rfl⟩
    exact ⟨some raw, .present (.mk hword hraw), by simpa using hadmitted, rfl⟩

theorem DerivesDirection.suffix {direction : SortDirection}
    (h : DerivesDirection tokens direction rest) : rest <:+ tokens := by
  cases h with
  | none => exact List.suffix_refl _
  | asc hword | desc hword => exact List.suffix_cons ..

theorem shortens_key : Shortens DerivesKey := by
  rintro tokens _ rest ⟨hpath, hdirection⟩
  obtain ⟨hsuffix, hlength⟩ := shortens_path _ _ _ hpath
  have := hdirection.suffix.length_le
  exact ⟨hdirection.suffix.trans hsuffix, by omega⟩

theorem derivesDirection_readDirection (tokens : List Token) :
    DerivesDirection tokens (readDirection tokens).1 (readDirection tokens).2 := by
  unfold readDirection
  split
  · rename_i rest hrest
    obtain ⟨word, rfl, hword⟩ := skipKind_eq_some hrest
    exact .desc hword
  · rename_i rest _ hrest
    obtain ⟨word, rfl, hword⟩ := skipKind_eq_some hrest
    exact .asc hword
  · exact .none

theorem yields_readKey (stop : Position) (aliases : List String) (tokens : List Token) :
    Yields stop tokens (readKey stop aliases tokens) fun r =>
      ∃ key, DerivesKey tokens key r.2 ∧ key.strip aliases = r.1 := by
  refine (yields_readPath stop .orderKey tokens).bind (List.Subset.refl _) ?_
  rintro ⟨path, rest⟩ hpath
  exact ⟨⟨path, _⟩, .mk hpath (derivesDirection_readDirection rest), rfl⟩

theorem yields_readOrderBy (ctx : ParseContext) (tokens : List Token) :
    Yields ctx.stop tokens (readOrderBy ctx tokens) fun r =>
      ∃ keys, DerivesOrderBy tokens keys r.2 ∧ r.1 = keys.map (·.strip ctx.aliases) := by
  unfold readOrderBy
  split
  · exact ⟨[], .absent, rfl⟩
  · rename_i more hmore
    obtain ⟨order, rfl, horder⟩ := skipKind_eq_some hmore
    refine (yields_readKind _ _ _ more).bind (List.subset_cons_self ..) ?_
    rintro ⟨by_, left⟩ ⟨rfl, hby⟩
    have hshort : Shortens fun tokens key rest =>
        ∃ raw, DerivesKey tokens raw rest ∧ raw.strip ctx.aliases = key :=
      fun tokens _ rest ⟨_, h, _⟩ => shortens_key tokens _ rest h
    refine ((readsList_readKeys ctx.stop ctx.aliases).yields (fun _ => rfl) hshort
      (yields_readKey ctx.stop ctx.aliases) _ left).mono
        (List.Subset.trans (List.subset_cons_self ..) (List.subset_cons_self ..)) ?_
    intro r hr
    obtain ⟨keys, hkeys, hmap⟩ := Listed.exists_map (fun _ _ _ h => h) hr
    exact ⟨keys, .present horder hby hkeys, hmap.symm⟩

theorem shortens_rows (clause : Keyword) : Shortens (DerivesRows clause) := by
  rintro _ _ rest ⟨-, -⟩
  exact ⟨⟨[_, _], rfl⟩, by simp only [List.length_cons]; omega⟩

theorem DerivesOrderBy.suffix {keys : List RawKey} (h : DerivesOrderBy tokens keys rest) :
    rest <:+ tokens := by
  cases h with
  | absent => exact List.suffix_refl _
  | present horder hby h =>
      exact (shortens_key.listed _ _ _ h).1.trans
        ((List.suffix_cons ..).trans (List.suffix_cons ..))

end Clauses

/-! ## Queries -/

section Queries

variable {values : Parameters} {q : RawQuery}

/-- A parameter that stands for a number of rows has a value. -/
theorem bound_of_rowValue? {t : Token} {v : Json} (ht : t.kind = .parameter)
    (h : t.rowValue? values = some v) : (values.get? t.text).isSome = true := by
  have hvalue : values.get? t.text = some v := by simpa [Token.rowValue?, ht] using h
  rw [hvalue]
  rfl

/-- The numbers of rows are counts, and the limit is one of them. -/
theorem counts_of_read {n? m? : Option Nat} (htop : CountsRows values q.top n?)
    (hlimit : (q.limit = none ∧ m? = n?) ∨ (n? = none ∧ CountsRows values q.limit m?)) :
    (∀ t ∈ q.rows, ∃ n : Nat, t.rowValue? values = some (.int n)) ∧
      (q.top = none ∨ q.limit = none) ∧ m? = q.limit? values := by
  -- one clause at most counts the rows
  have hone : ∀ {t? : Option Token} {n? : Option Nat}, CountsRows values t? n? →
      q.rows = t?.toList →
      (∀ t ∈ q.rows, ∃ n : Nat, t.rowValue? values = some (.int n)) ∧ n? = q.limit? values := by
    intro t? n? hcounts hrows
    rw [RawQuery.limit?, hrows]
    cases t? with
    | none =>
        obtain rfl : n? = none := by simpa [CountsRows] using hcounts.symm
        exact ⟨by simp, rfl⟩
    | some t =>
        cases n? with
        | none => cases hcounts
        | some n =>
            have hvalue : t.rowValue? values = some (.int n) := Option.some.inj hcounts
            refine ⟨by simpa using ⟨n, hvalue⟩, ?_⟩
            simp [hvalue]
  rcases hlimit with ⟨hnone, rfl⟩ | ⟨rfl, hlimit⟩
  · obtain ⟨hcounts, heq⟩ := hone htop (by simp [RawQuery.rows, hnone])
    exact ⟨hcounts, .inr hnone, heq⟩
  · have hnone : q.top = none := by
      cases h : q.top with
      | none => rfl
      | some t => rw [h] at htop; cases htop
    obtain ⟨hcounts, heq⟩ := hone hlimit (by simp [RawQuery.rows, hnone])
    exact ⟨hcounts, .inl hnone, heq⟩

/-- The condition of an admitted query is admitted. -/
theorem RawQuery.Admitted.where? {registry : Registry} (h : q.Admitted registry values)
    (aliases : List String) (stop : Position) :
    ∀ e ∈ q.where?, e.Admitted ⟨registry, values, aliases, stop⟩ := by
  intro e he
  have he : q.where? = some e := he
  refine ⟨fun t ht => h.bound t ?_, fun call hcall => h.registered call ?_⟩
  · rw [RawQuery.parameters, he]
    exact List.mem_append_left _ ht
  · rw [RawQuery.calls, he]
    exact hcall

/-- A query is admitted if its condition is, and the rules for its other
clauses are kept. -/
theorem RawQuery.admitted_of_where? (ctx : ParseContext)
    (hadmitted : ∀ e ∈ q.where?, e.Admitted ctx)
    (hcounts : ∀ t ∈ q.rows, ∃ n : Nat, t.rowValue? ctx.parameters = some (.int n))
    (hexclusive : q.top = none ∨ q.limit = none) (halone : SelectsAlone q.aliases q.projection) :
    q.Admitted ctx.registry ctx.parameters := by
  refine ⟨fun t ht => ?_, fun call hcall => ?_, hcounts, hexclusive, halone⟩
  · rcases List.mem_append.mp ht with ht | ht
    · cases hwhere : q.where? with
      | none =>
          rw [hwhere] at ht
          cases ht
      | some e =>
          rw [hwhere] at ht
          exact (hadmitted e hwhere).bound t ht
    · obtain ⟨ht, hkind⟩ := List.mem_filter.mp ht
      obtain ⟨n, hvalue⟩ := hcounts t ht
      exact bound_of_rowValue? (by simpa using hkind) hvalue
  · cases hwhere : q.where? with
    | none =>
        rw [RawQuery.calls, hwhere] at hcall
        cases hcall
    | some e =>
        rw [RawQuery.calls, hwhere] at hcall
        exact (hadmitted e hwhere).registered call hcall

/-- What is read as a query is derived, keeps the rules beyond the
grammar, and has its meaning. -/
theorem yields_readQuery (registry : Registry) (values : Parameters) (stop : Position)
    (text : String) (tokens : List Token) :
    Yields stop tokens (readQuery ⟨registry, values, [], stop⟩ text tokens) fun p =>
      ∃ q, DerivesQuery tokens q ∧ q.Admitted registry values ∧ p = q.query values text := by
  unfold readQuery
  refine (yields_readKind stop _ .select tokens).bind (List.Subset.refl _) ?_
  rintro ⟨select, t₁⟩ ⟨rfl, hselect⟩
  have hsub₁ : t₁ ⊆ select :: t₁ := List.subset_cons_self ..
  refine (yields_readTop _ t₁).bind hsub₁ ?_
  rintro ⟨n?, t₂⟩ ⟨top, htop, hcounts⟩
  have hsub₂ := List.Subset.trans (Maybe.suffix (shortens_rows .top) htop).subset hsub₁
  refine (yields_readProjection stop t₂).bind hsub₂ ?_
  rintro ⟨projection, rest⟩ hprojection
  have hsub₃ := List.Subset.trans hprojection.suffix.subset hsub₂
  refine (yields_readKind stop _ .source rest).bind hsub₃ ?_
  rintro ⟨from_, rest⟩ ⟨rfl, hfrom⟩
  have hsub₃ := List.Subset.trans (List.subset_cons_self ..) hsub₃
  refine (yields_readKind stop _ .container rest).bind hsub₃ ?_
  rintro ⟨name, t₃⟩ ⟨rfl, hname⟩
  have hsub₃ := List.Subset.trans (List.subset_cons_self ..) hsub₃
  refine (yields_readAlias stop t₃).bind hsub₃ ?_
  rintro ⟨alias?, t₄⟩ halias
  have hsub₄ := List.Subset.trans (Maybe.suffix shortens_alias halias).subset hsub₃
  refine (yields_buildProjection stop (aliasesOf name.text alias?) ?_).bind
    (List.Subset.refl _) ?_
  · rintro items rfl item hitem
    exact hsub₂ (hprojection.mem_start item hitem)
  rintro _ ⟨halone, rfl⟩
  refine (yields_readWhere ⟨registry, values, aliasesOf name.text alias?, stop⟩ t₄).bind
    hsub₄ ?_
  rintro ⟨_, t₅⟩ ⟨where?, hwhere, hadmitted, rfl⟩
  have hsub₅ := List.Subset.trans (Maybe.suffix shortens_where hwhere).subset hsub₄
  refine (yields_readOrderBy ⟨registry, values, aliasesOf name.text alias?, stop⟩ t₅).bind
    hsub₅ ?_
  rintro ⟨_, t₆⟩ ⟨keys, hkeys, rfl⟩
  have hsub₆ := List.Subset.trans hkeys.suffix.subset hsub₅
  refine (yields_readLimit ⟨registry, values, aliasesOf name.text alias?, stop⟩ n? t₆).bind
    hsub₆ ?_
  rintro ⟨m?, t₇⟩ ⟨limit, hlimit, hrows⟩
  cases t₇ with
  | cons t rest =>
      have hsub₇ := List.Subset.trans (Maybe.suffix (shortens_rows .limit) hlimit).subset hsub₆
      refine (yields_expectedAt stop _ [t] _).mono ?_ fun _ h => h
      exact List.Subset.trans (by simp) hsub₇
  | nil =>
      let q : RawQuery := ⟨top, projection, name, alias?, where?, keys, limit⟩
      obtain ⟨hall, hexclusive, rfl⟩ := counts_of_read (q := q) hcounts hrows
      exact ⟨q, .mk hselect htop hprojection hfrom hname halias hwhere hkeys hlimit,
        RawQuery.admitted_of_where? ⟨registry, values, aliasesOf name.text alias?, stop⟩ hadmitted
          hall hexclusive halone, rfl⟩

end Queries

end DocStore
