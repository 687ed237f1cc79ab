import DocStore.Proofs.Query.Acceptance
import DocStore.Proofs.Query.Layout

/-!
# Values have no say in the structure

Parameters are replaced by their values while a query is parsed, but the
values decide nothing except whether the parser accepts them. The tokens
make one query as written, whatever the parameters stand for
(`query_eq_of_derives`), and of the values nothing goes into the query
but constants where the parameters stand, and its limit. So two sets of
values under which a text is parsed give queries that differ there alone
(`masked_eq_of_parse`).

To compare the two, both are read once more with the same value for
every parameter, an integer that may also count rows (`placeholders`).
-/

namespace DocStore

/-! ## Parameters among the tokens -/

/-- The tokens of parameters. -/
def parameterTokens (tokens : List Token) : List Token :=
  tokens.filter (·.kind = .parameter)

theorem mem_parameterTokens {t : Token} {tokens : List Token} :
    t ∈ parameterTokens tokens ↔ t ∈ tokens ∧ t.kind = .parameter := by
  simp [parameterTokens]

theorem parameterTokens_subset {tokens more : List Token} (h : more <:+ tokens) :
    parameterTokens more ⊆ parameterTokens tokens :=
  (h.filter _).subset

section Derivations

variable {tokens rest : List Token}

/-- What lists of phrases consist of stands among the tokens. -/
theorem Listed.exists_phrase {α : Type} {phrase : List Token → α → List Token → Prop}
    (hphrase : Shortens phrase) {as : List α} (h : Listed phrase tokens as rest) :
    ∀ a ∈ as, ∃ part left, part <:+ tokens ∧ phrase part a left := by
  induction h with
  | one h => simpa using ⟨_, List.suffix_refl _, _, h⟩
  | more h hcomma hs ih =>
      intro b hb
      rcases List.mem_cons.mp hb with rfl | hb
      · exact ⟨_, _, List.suffix_refl _, h⟩
      · obtain ⟨part, left, hsuffix, hpart⟩ := ih b hb
        have hmore := (List.suffix_cons ..).trans (hphrase _ _ _ h).1
        exact ⟨part, left, hsuffix.trans hmore, hpart⟩

theorem Derives.parameters_subset {n : Nonterminal} {e : RawExpr} (h : Derives n tokens e rest) :
    e.parameters ⊆ parameterTokens tokens := by
  induction h with
  | and_or h ih | not_and h ih | comparison_not h ih | operand_comparison h ih => exact ih
  | or hl hword hr ihl ihr | and hl hword hr ihl ihr | comparison hl hsign hr ihl ihr =>
      have hmore := (List.suffix_cons ..).trans (shortens_derives _ _ _ _ hl).1
      exact List.append_subset.mpr ⟨ihl, List.Subset.trans ihr (parameterTokens_subset hmore)⟩
  | not hword h ih | parentheses hopening h hclosing ih =>
      exact List.Subset.trans ih (parameterTokens_subset (List.suffix_cons ..))
  | literal ht | path h | emptyCall hname hopening hclosing => exact List.nil_subset _
  | parameter ht =>
      intro t hmem
      obtain rfl := List.mem_singleton.mp hmem
      exact mem_parameterTokens.mpr ⟨List.mem_cons_self .., ht⟩
  | call hname hopening argument hargument hargs hclosing ih =>
      intro t ht
      rw [RawExpr.parameters, RawExpr.parametersAll_eq_flatMap] at ht
      obtain ⟨e, he, ht⟩ := List.mem_flatMap.mp ht
      have hshortens : Shortens argument :=
        fun tokens e rest h => shortens_derives _ _ _ _ (hargument tokens e rest h)
      obtain ⟨part, left, hsuffix, hpart⟩ := hargs.exists_phrase hshortens e he
      refine parameterTokens_subset ?_ (ih part e left hpart ht)
      exact hsuffix.trans ((List.suffix_cons ..).trans (List.suffix_cons ..))

theorem DerivesRows.mem {clause : Keyword} {t : Token} (h : DerivesRows clause tokens t rest) :
    t ∈ tokens := by
  cases h with
  | mk hword ht => simp

theorem Maybe.subset_of_rows {clause : Keyword} {t? : Option Token}
    (h : Maybe (DerivesRows clause) tokens t? rest) : t?.toList ⊆ tokens := by
  cases h with
  | absent => exact List.nil_subset _
  | present h => simpa using h.mem

/-- The parameters and the numbers of rows stand among the tokens. -/
theorem DerivesQuery.subset {q : RawQuery} (h : DerivesQuery tokens q) :
    q.parameters ⊆ parameterTokens tokens ∧ q.rows ⊆ tokens := by
  obtain @⟨select, from_, name, t₁, t₂, t₃, t₄, t₅, t₆, top, limit, projection, alias?, where?,
    keys, -, htop, hprojection, -, -, halias, hwhere, hkeys, hlimit⟩ := h
  have h₁ : t₁ <:+ select :: t₁ := List.suffix_cons ..
  have h₂ := (Maybe.suffix (shortens_rows .top) htop).trans h₁
  have h₃ : t₃ <:+ select :: t₁ :=
    (List.suffix_cons ..).trans ((List.suffix_cons ..).trans (hprojection.suffix.trans h₂))
  have h₄ := (Maybe.suffix shortens_alias halias).trans h₃
  have h₆ := hkeys.suffix.trans ((Maybe.suffix shortens_where hwhere).trans h₄)
  have hrows : top.toList ++ limit.toList ⊆ select :: t₁ :=
    List.append_subset.mpr ⟨List.Subset.trans htop.subset_of_rows h₁.subset,
      List.Subset.trans hlimit.subset_of_rows h₆.subset⟩
  refine ⟨List.append_subset.mpr ⟨?_, ?_⟩, hrows⟩
  · cases hwhere with
    | absent => exact List.nil_subset _
    | present h =>
        obtain ⟨-, h⟩ := h
        exact List.Subset.trans h.parameters_subset
          (parameterTokens_subset ((List.suffix_cons ..).trans h₄))
  · intro t ht
    obtain ⟨hmem, hkind⟩ := List.mem_filter.mp ht
    exact mem_parameterTokens.mpr ⟨hrows hmem, by simpa using hkind⟩

end Derivations

/-! ## The query as written -/

/-- The same integer for every text of a token. -/
def placeholders (tokens : List Token) : Parameters :=
  tokens.map fun t => (t.text, .int 0)

theorem get?_placeholders {t : Token} {tokens : List Token} (h : t ∈ tokens) :
    (placeholders tokens).get? t.text = some (.int 0) := by
  induction tokens with
  | nil => cases h
  | cons u tokens ih =>
      rw [placeholders, List.map_cons, Table.get?]
      split
      · rfl
      · rename_i hne
        rcases List.mem_cons.mp h with rfl | hmem
        · exact absurd rfl hne
        · exact ih hmem

section Bindings

variable {registry : Registry} {values values' : Parameters} {tokens : List Token}
  {raw raw' : RawQuery}

/-- The value of a number of rows is that of the integer, or of the
parameter. -/
theorem Token.rowValue?_cases (t : Token) :
    (∃ n, ∀ values, t.rowValue? values = some (.int n)) ∨
      ∀ values, t.rowValue? values = values.get? t.text := by
  cases hkind : t.kind <;> simp [rowValue?, hkind]

/-- A query that is admitted is admitted with the placeholders. -/
theorem RawQuery.Admitted.placeholders (h : raw.Admitted registry values)
    (hraw : DerivesQuery tokens raw) : raw.Admitted registry (placeholders tokens) := by
  obtain ⟨hparameters, hrows⟩ := hraw.subset
  refine ⟨fun t ht => ?_, h.registered, fun t ht => ?_, h.exclusive, h.alone⟩
  · rw [get?_placeholders (mem_parameterTokens.mp (hparameters ht)).1]
    rfl
  · rcases t.rowValue?_cases with ⟨n, hvalue⟩ | hvalue
    · obtain ⟨m, hm⟩ := h.counts t ht
      exact ⟨m, (hvalue _).trans ((hvalue values).symm.trans hm)⟩
    · exact ⟨0, (hvalue _).trans (get?_placeholders (hrows ht))⟩

/-- **The tokens make one query**: two ways to derive them mean the
same, whichever values they were admitted for. -/
theorem query_eq_of_derives (hraw : DerivesQuery tokens raw) (h : raw.Admitted registry values)
    (hraw' : DerivesQuery tokens raw') (h' : raw'.Admitted registry values') (text : String) :
    raw.query (placeholders tokens) text = raw'.query (placeholders tokens) text := by
  have hread := readQuery_of_derives .start text hraw (h.placeholders hraw)
  have hread' := readQuery_of_derives .start text hraw' (h'.placeholders hraw')
  exact Except.ok.inj (hread.symm.trans hread')

/-- What is parsed is derived from the tokens of the text. -/
theorem exists_derives_of_parse {text : String} {stop : Position} {given : Json} {q : Query}
    (htext : TokenList.ofText text = .ok ⟨tokens, stop⟩)
    (h : Query.parse registry text given = .ok q) :
    ∃ values raw, Parameters.normalize given = .ok values ∧ DerivesQuery tokens raw ∧
      raw.Admitted registry values ∧ q = raw.query values text := by
  rw [parse_of_ofText htext] at h
  split at h
  · cases h
  obtain ⟨values, hvalues, h⟩ := bind_eq_ok_iff.mp h
  rw [mapError_eq_ok_iff] at hvalues h
  obtain ⟨raw, hraw, hadmitted, rfl⟩ :=
    (yields_readQuery registry values stop text tokens).of_ok h
  exact ⟨values, raw, hvalues, hraw, hadmitted, rfl⟩

/-- A text with the lexemes of a query is parsed to it, but for text and
places. -/
theorem exists_parse_of_derives {text' : String} {tokens' : List Token} {stop' : Position}
    {given : Json} (htext' : TokenList.ofText text' = .ok ⟨tokens', stop'⟩)
    (hmap : tokens'.map Token.lexeme = tokens.map Token.lexeme)
    (hvalues : Parameters.normalize given = .ok values) (hraw : DerivesQuery tokens raw)
    (hadmitted : raw.Admitted registry values) (text : String) :
    ∃ q', Query.parse registry text' given = .ok q' ∧
      q'.unplaced = (raw.query values text).unplaced := by
  have hsame := sameLexemes_of_map_eq hmap.symm
  have hread := readQuery_of_derives .start text hraw hadmitted
  have hagrees : Agrees (fun q q' : Query => q.unplaced = q'.unplaced) _
      (readQuery ⟨registry, values, [], stop'⟩ text' tokens') :=
    readQuery_agrees ⟨registry, values, [], .start⟩ text text' hsame
  rw [hread] at hagrees
  have hempty : tokens'.isEmpty = false := by
    cases hraw
    cases hsame
    rfl
  cases hread' : readQuery ⟨registry, values, [], stop'⟩ text' tokens' with
  | error e =>
      rw [hread'] at hagrees
      cases hagrees
  | ok q' =>
      rw [hread'] at hagrees
      obtain ⟨hq⟩ := hagrees
      refine ⟨q', ?_, hq.symm⟩
      rw [parse_of_ofText htext', hempty, if_neg Bool.false_ne_true, hvalues]
      exact congrArg (Except.mapError QueryRefusal.text) hread'

end Bindings

/-! ## Queries up to values -/

namespace Expr

mutual

/-- The expression without the constants that stand at the places. -/
def masked (places : List Position) : Expr → Expr
  | constant v p => constant (if p.any (· ∈ places) then none else v) p
  | property path segments p => property path segments p
  | unary op e p => unary op (masked places e) p
  | binary op l r p => binary op (masked places l) (masked places r) p
  | call name args p => call name (maskedAll places args) p

def maskedAll (places : List Position) : List Expr → List Expr
  | [] => []
  | e :: es => masked places e :: maskedAll places es

end

end Expr

/-- The query without the constants that stand at the places, and
without the number in its limit. -/
def Query.masked (places : List Position) (q : Query) : Query :=
  { q with where? := q.where?.map (·.masked places), limit := q.limit.map fun _ => 0 }

namespace RawExpr

mutual

/-- Values go into the constants at the places of the parameters. -/
theorem masked_expr (values values' : Parameters) (aliases : List String)
    {places : List Position} : ∀ e : RawExpr, (∀ t ∈ e.parameters, t.position ∈ places) →
      (e.expr values aliases).masked places = (e.expr values' aliases).masked places
  | literal t, _ => rfl
  | path p, _ => rfl
  | parameter t, h => by
      have ht : t.position ∈ places := h t (by simp [parameters])
      simp [expr, Expr.masked, ht]
  | call name args, h => by
      simp only [expr, Expr.masked, masked_exprAll values values' aliases args h]
  | not word e, h => by
      simp only [expr, Expr.masked, masked_expr values values' aliases e h]
  | binary op sign l r, h => by
      have hl := masked_expr values values' aliases l fun t ht => h t (List.mem_append_left _ ht)
      have hr := masked_expr values values' aliases r fun t ht => h t (List.mem_append_right _ ht)
      simp only [expr, Expr.masked, hl, hr]

theorem masked_exprAll (values values' : Parameters) (aliases : List String)
    {places : List Position} : ∀ es : List RawExpr,
      (∀ t ∈ parametersAll es, t.position ∈ places) →
      Expr.maskedAll places (exprAll values aliases es) =
        Expr.maskedAll places (exprAll values' aliases es)
  | [], _ => rfl
  | e :: es, h => by
      have he := masked_expr values values' aliases e fun t ht => h t (List.mem_append_left _ ht)
      have hes := masked_exprAll values values' aliases es fun t ht =>
        h t (List.mem_append_right _ ht)
      simp only [exprAll, Expr.maskedAll, he, hes]

end

end RawExpr

section Masked

variable {registry : Registry} {values values' : Parameters} {raw : RawQuery}

/-- An admitted query has a limit if and only if a clause counts rows. -/
theorem RawQuery.Admitted.isSome_limit? (h : raw.Admitted registry values) :
    (raw.limit? values).isSome = raw.rows.head?.isSome := by
  rw [limit?]
  cases hrows : raw.rows with
  | nil => rfl
  | cons t rest =>
      obtain ⟨n, hn⟩ := h.counts t (hrows ▸ List.mem_cons_self ..)
      simp [hn]

theorem RawQuery.Admitted.masked_query {registry' : Registry} (h : raw.Admitted registry values)
    (h' : raw.Admitted registry' values') {places : List Position}
    (hplaces : ∀ t ∈ raw.parameters, t.position ∈ places) (text : String) :
    (raw.query values text).masked places = (raw.query values' text).masked places := by
  have hlimit : (raw.limit? values).map (fun _ => 0) = (raw.limit? values').map fun _ => 0 := by
    have hsome := h.isSome_limit?.trans h'.isSome_limit?.symm
    cases hvalue : raw.limit? values <;> cases hvalue' : raw.limit? values' <;>
      simp_all
  have hwhere : raw.where?.map (fun e => (e.expr values raw.aliases).masked places) =
      raw.where?.map fun e => (e.expr values' raw.aliases).masked places := by
    cases he : raw.where? with
    | none => rfl
    | some e =>
        refine congrArg some (RawExpr.masked_expr values values' raw.aliases e fun t ht => ?_)
        exact hplaces t (by rw [parameters, he]; exact List.mem_append_left _ ht)
  simp only [Query.masked, query, Option.map_map, Function.comp_def, hwhere, hlimit]

/-- Whatever its parameters stand for, a text is parsed to the same
query, up to the constants in their places and the limit. -/
theorem masked_eq_of_parse {text : String} {tokens : List Token} {stop : Position}
    {given given' : Json} {q q' : Query} (htext : TokenList.ofText text = .ok ⟨tokens, stop⟩)
    (h : Query.parse registry text given = .ok q)
    (h' : Query.parse registry text given' = .ok q') :
    q.masked ((parameterTokens tokens).map (·.position)) =
      q'.masked ((parameterTokens tokens).map (·.position)) := by
  obtain ⟨values, raw, -, hraw, hadmitted, rfl⟩ := exists_derives_of_parse htext h
  obtain ⟨values', raw', -, hraw', hadmitted', rfl⟩ := exists_derives_of_parse htext h'
  have hplaces : ∀ {raw : RawQuery}, DerivesQuery tokens raw → ∀ t ∈ raw.parameters,
      t.position ∈ (parameterTokens tokens).map (·.position) :=
    fun hraw t ht => List.mem_map_of_mem (hraw.subset.1 ht)
  rw [hadmitted.masked_query (hadmitted.placeholders hraw) (hplaces hraw),
    hadmitted'.masked_query (hadmitted'.placeholders hraw') (hplaces hraw'),
    query_eq_of_derives hraw hadmitted hraw' hadmitted']

end Masked

end DocStore
