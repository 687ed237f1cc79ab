import DocStore.Proofs.Query.Acceptance
import DocStore.Proofs.Query.PrintedExpr

/-!
# Queries as written

The clauses that the printer writes are those of the grammar, one after
the other, and a query that can be written keeps the rules beyond the
grammar (`derives_write`). So the parser, which accepts the grammar,
reads it back (`readQuery_write`).
-/

namespace DocStore

open Lexeme

/-! ## Clauses that may be left out -/

section Combinations

variable {α β : Type} {ls : List Lexeme}

theorem spells_absent {phrase : List Token → α → List Token → Prop} :
    Spells (Maybe phrase) [] (· = none) :=
  fun _ tokens htokens => ⟨none, tokens, .absent, htokens, rfl⟩

theorem Spells.present {phrase : List Token → α → List Token → Prop} {good : α → Prop}
    (h : Spells phrase ls good) : Spells (Maybe phrase) ls fun a? => ∃ a, a? = some a ∧ good a := by
  intro more tokens htokens
  obtain ⟨a, rest, hphrase, hrest, ha⟩ := h more tokens htokens
  exact ⟨some a, rest, .present hphrase, hrest, a, rfl, ha⟩

/-- A list is spelled if its entries are; `f` gives an entry back from
what is derived. -/
theorem spells_list {phrase : List Token → β → List Token → Prop} {write : α → List Lexeme}
    {f : β → α} {as : List α} (hne : as ≠ [])
    (h : ∀ a ∈ as, Spells phrase (write a) (f · = a)) :
    Spells (Listed phrase) (writeList write as) fun bs => bs.map f = as := by
  induction as with
  | nil => exact absurd rfl hne
  | cons a as ih =>
      have ha := h a (by simp)
      cases as with
      | nil =>
          refine ha.one.mono ?_
          rintro _ ⟨b, rfl, rfl⟩
          rfl
      | cons a' as =>
          have hs := ih (List.cons_ne_nil a' as) fun b hb => h b (List.mem_cons_of_mem a hb)
          refine (ha.more hs).mono ?_
          rintro _ ⟨b, bs, rfl, rfl, hbs⟩
          rw [List.map_cons, hbs]

end Combinations

/-! ## Projection -/

theorem spells_as {name : String} (h : IsName name) :
    Spells DerivesAs [ofKeyword .as_, ofWord name] (· = name) := by
  intro more tokens htokens
  obtain ⟨word, rest, rfl, hword, -, hrest⟩ := exists_token htokens
  obtain ⟨t, rest, rfl, ht, htext, hrest⟩ := exists_token hrest
  exact ⟨_, rest, .mk hword (ht.trans (kind_ofWord h rfl)), hrest,
    htext.trans String.ofList_toList⟩

theorem spells_writeAs {name? : Option String} (h : ∀ name ∈ name?, IsName name) :
    Spells (Maybe DerivesAs) (writeAs name?) (· = name?) := by
  cases name? with
  | none => exact spells_absent
  | some name =>
      refine (spells_as (h name rfl)).present.mono ?_
      rintro _ ⟨_, rfl, rfl⟩
      rfl

theorem spells_item {aliases : List String} {item : SelectItem} (h : item.Printable aliases) :
    Spells DerivesItem item.write (·.strip aliases = item) := by
  intro more tokens htokens
  obtain ⟨hpath, hname, -⟩ := h
  rw [SelectItem.write, List.append_assoc] at htokens
  obtain ⟨path, rest, hderived, hrest, htext, hbelow⟩ := spells_path hpath _ tokens htokens
  obtain ⟨_, rest, halias, hmore, rfl⟩ := spells_writeAs hname more rest hrest
  refine ⟨_, rest, .mk hderived halias, hmore, ?_⟩
  show RawItem.strip aliases ⟨path, item.alias?⟩ = item
  rw [RawItem.strip, htext, hbelow]

/-- Items that can be written select no whole document, so that they may
stand beside each other. -/
theorem projectionOf_of_printable {aliases : List String} {raws : List RawItem}
    (h : ∀ item ∈ raws.map (·.strip aliases), item.Printable aliases) :
    SelectsAlone aliases (some raws) ∧
      projectionOf aliases (some raws) = .items (raws.map (·.strip aliases)) := by
  have hwhole : ∀ raw ∈ raws, raw.isWhole aliases = false := by
    intro raw hraw
    have hbare := (h _ (List.mem_map_of_mem hraw)).2.2
    rw [Bool.eq_false_iff]
    intro hw
    rw [RawItem.isWhole, Bool.and_eq_true, List.isEmpty_iff, Option.isNone_iff_eq_none] at hw
    exact hbare hw
  constructor
  · rintro _ ⟨⟩ ⟨raw, hraw, hw⟩
    rw [hwhole raw hraw] at hw
    cases hw
  · have hany : raws.any (·.isWhole aliases) = false := by
      rw [List.any_eq_false]
      exact fun raw hraw => by simp [hwhole raw hraw]
    rw [projectionOf, hany]
    rfl

theorem spells_projection {aliases : List String} {projection : Projection}
    (h : projection.Printable aliases) :
    Spells DerivesProjection projection.write fun raw =>
      SelectsAlone aliases raw ∧ projectionOf aliases raw = projection := by
  cases projection with
  | everything =>
      intro more tokens htokens
      obtain ⟨t, rest, rfl, ht, -, hrest⟩ := exists_token htokens
      exact ⟨none, rest, .star ht, hrest, fun _ h => (by cases h), rfl⟩
  | items items =>
      obtain ⟨hne, hitems⟩ := h
      intro more tokens htokens
      obtain ⟨raws, rest, hlisted, hrest, rfl⟩ :=
        spells_list hne (fun item hitem => spells_item (hitems item hitem)) more tokens htokens
      exact ⟨some raws, rest, .items hlisted, hrest, projectionOf_of_printable hitems⟩

/-! ## Source and condition -/

theorem spells_alias {name? : Option String} (h : ∀ name ∈ name?, IsName name) :
    Spells (Maybe DerivesAlias) (writeAs name?) (· = name?) := by
  refine (spells_writeAs h).lift fun tokens a? rest h => ?_
  cases h with
  | absent => exact .absent
  | present h => exact .present (.named h)

theorem spells_where (ctx : ParseContext) {style : Style} (hstyle : style.Faithful)
    {where? : Option Expr} (h : ∀ e ∈ where?, e.Printable ctx.registry ctx.aliases)
    (hbinds : Binds ctx.parameters 0 (where?.elim [] (·.bound style))) :
    Spells (Maybe DerivesWhere) (Query.writeWhere style where?) fun raw? =>
      (∀ raw ∈ raw?, raw.Admitted ctx) ∧
        raw?.map (fun raw => (raw.expr ctx.parameters ctx.aliases).unplaced) =
          where?.map Expr.unplaced := by
  cases where? with
  | none =>
      refine spells_absent.mono ?_
      rintro _ rfl
      exact ⟨by simp, rfl⟩
  | some e =>
      intro more tokens htokens
      obtain ⟨word, rest, rfl, hword, -, hrest⟩ := exists_token htokens
      have he := (spellsAt_write hstyle 0 e (h e rfl) hbinds).lower (Nat.zero_le _)
      obtain ⟨raw, rest, hraw, hmore, hmeans⟩ := he more rest hrest
      exact ⟨some raw, rest, .present (.mk hword hraw), hmore, by simpa using hmeans.admitted,
        congrArg some hmeans.unplaced⟩

/-! ## Order and limit -/

theorem derivesDirection_of_keyword {t : Token} {direction : SortDirection}
    (ht : t.kind = .keyword direction.keyword) (rest : List Token) :
    DerivesDirection (t :: rest) direction rest := by
  cases direction with
  | ascending => exact .asc ht
  | descending => exact .desc ht

theorem spells_key {aliases : List String} {key : SortKey}
    (h : IsPath aliases key.path key.segments) :
    Spells DerivesKey key.write (·.strip aliases = key) := by
  intro more tokens htokens
  rw [SortKey.write, List.append_assoc] at htokens
  obtain ⟨path, rest, hderived, hrest, htext, hbelow⟩ := spells_path h _ tokens htokens
  obtain ⟨t, rest, rfl, ht, -, hmore⟩ := exists_token hrest
  refine ⟨_, rest, .mk hderived (derivesDirection_of_keyword ht rest), hmore, ?_⟩
  show RawKey.strip aliases ⟨path, key.direction⟩ = key
  rw [RawKey.strip, htext, hbelow]

theorem spells_orderBy {aliases : List String} {keys : List SortKey}
    (h : ∀ key ∈ keys, IsPath aliases key.path key.segments) :
    Spells DerivesOrderBy (Query.writeOrderBy keys) (·.map (·.strip aliases) = keys) := by
  intro more tokens htokens
  cases keys with
  | nil => exact ⟨[], tokens, .absent, htokens, rfl⟩
  | cons key keys =>
      obtain ⟨order, rest, rfl, horder, -, hrest⟩ := exists_token htokens
      obtain ⟨by_, rest, rfl, hby, -, hrest⟩ := exists_token hrest
      obtain ⟨raws, rest, hlisted, hmore, hraws⟩ :=
        spells_list (List.cons_ne_nil key keys) (fun k hk => spells_key (h k hk)) more rest hrest
      exact ⟨raws, rest, .present horder hby hlisted, hmore, hraws⟩

theorem TokenKind.eq_integer_of_literal? {kind : TokenKind} {n : Int}
    (h : kind.literal? = some (.int n)) : kind = .integer n := by
  cases kind <;> simp_all [TokenKind.literal?]

theorem spells_limit {parameters : Parameters} {style : Style} (hstyle : style.Faithful) {k : Nat}
    {limit : Option Nat}
    (hbinds : Binds parameters k (limit.elim [] fun n => style.bound (.int n))) :
    Spells (Maybe (DerivesRows .limit)) (Query.writeLimit style k limit)
      (CountsRows parameters · limit) := by
  cases limit with
  | none =>
      refine spells_absent.mono ?_
      rintro _ rfl
      rfl
  | some n =>
      intro more tokens htokens
      obtain ⟨word, rest, rfl, hword, -, hrest⟩ := exists_token htokens
      obtain ⟨t, rest, rfl, ht, htext, hmore⟩ := exists_token hrest
      rcases constant_cases hstyle hbinds ht htext with hliteral | ⟨ht, hvalue⟩
      · have ht := TokenKind.eq_integer_of_literal? hliteral
        refine ⟨some t, rest, .present (.mk hword (.inl ⟨n, ht⟩)), hmore, ?_⟩
        simp [CountsRows, Token.rowValue?, ht]
      · refine ⟨some t, rest, .present (.mk hword (.inr ht)), hmore, ?_⟩
        simp [CountsRows, Token.rowValue?, ht, hvalue]

/-! ## Queries -/

section Queries

variable {registry : Registry} {parameters : Parameters} {style : Style} {q : Query}
  {tokens : List Token}

/-- What is written of a query is derived as the query, and keeps the
rules beyond the grammar. -/
theorem derives_write (hstyle : style.Faithful) (h : q.Printable registry)
    (hbinds : Binds parameters 0 (q.bound style)) (text : String)
    (htokens : tokens.map Token.lexeme = q.write style) :
    ∃ raw, DerivesQuery tokens raw ∧ raw.Admitted registry parameters ∧
      (raw.query parameters text).unplaced = q.unplaced := by
  have hrowBinds : Binds parameters (q.whereBound style).length
      (q.limit.elim [] fun n => style.bound (.int n)) := by
    have hright := Binds.right (show Binds parameters 0 (q.whereBound style ++ _) from hbinds)
    rwa [Nat.zero_add] at hright
  obtain ⟨select, t₁, rfl, hselect, -, ht₁⟩ := exists_token htokens
  obtain ⟨projection, t₂, hprojection, ht₂, halone, hmeant⟩ :=
    spells_projection h.projection _ t₁ ht₁
  obtain ⟨from_, t₂, rfl, hfrom, -, ht₂⟩ := exists_token ht₂
  obtain ⟨name, t₃, rfl, hname, hcontainer, ht₃⟩ := exists_token ht₂
  obtain ⟨_, t₄, halias, ht₄, rfl⟩ := spells_alias h.sourceAlias _ t₃ ht₃
  obtain ⟨where?, t₅, hwhere, ht₅, hadmitted, hcondition⟩ :=
    spells_where ⟨registry, parameters, aliasesOf q.container q.alias?, .start⟩ hstyle
      h.condition hbinds.left _ t₄ ht₄
  obtain ⟨keys, t₆, hkeys, ht₆, horder⟩ := spells_orderBy h.orderBy _ t₅ ht₅
  obtain ⟨limit, t₇, hlimit, ht₇, hcounts⟩ :=
    spells_limit hstyle hrowBinds [] t₆ (by rw [ht₆, List.append_nil])
  obtain rfl := List.map_eq_nil_iff.mp ht₇
  have hcontainer : name.text = q.container := hcontainer.trans String.ofList_toList
  let raw : RawQuery := ⟨none, projection, name, q.alias?, where?, keys, limit⟩
  have haliases : raw.aliases = aliasesOf q.container q.alias? :=
    congrArg (aliasesOf · q.alias?) hcontainer
  obtain ⟨hall, hexclusive, hrows⟩ :=
    counts_of_read (show CountsRows parameters raw.top none from rfl) (.inr ⟨rfl, hcounts⟩)
  refine ⟨raw, .mk hselect .absent hprojection hfrom (hname.trans (kind_ofWord h.container rfl))
    halias hwhere hkeys hlimit, ?_, ?_⟩
  · exact RawQuery.admitted_of_where? _ hadmitted hall hexclusive (haliases.symm ▸ halone)
  · rw [RawQuery.query, haliases, ← hrows]
    simp only [Query.unplaced, raw, hcontainer, hmeant, horder, Option.map_map, ← hcondition]
    rfl

/-- **Queries round trip over tokens**: tokens of the lexemes of a query
are parsed as the query, whatever their places in the text. -/
theorem readQuery_write {stop : Position} (hstyle : style.Faithful) (h : q.Printable registry)
    (hbinds : Binds parameters 0 (q.bound style)) (text : String)
    (htokens : tokens.map Token.lexeme = q.write style) :
    ∃ p, readQuery ⟨registry, parameters, [], stop⟩ text tokens = .ok p ∧
      p.unplaced = q.unplaced := by
  obtain ⟨raw, hraw, hadmitted, hmeans⟩ := derives_write hstyle h hbinds text htokens
  exact ⟨_, readQuery_of_derives stop text hraw hadmitted, hmeans⟩

end Queries

end DocStore
