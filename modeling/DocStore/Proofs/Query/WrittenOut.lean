import DocStore.Proofs.Query.Binding
import DocStore.Proofs.Query.Decidable
import DocStore.Proofs.Query.ParsePrint
import DocStore.Proofs.Query.Rewriting

/-!
# Parameters written out

To bind a parameter is to write the literal of its value in its place
(`parse_writtenOut`). In a text that is written out, every parameter is
replaced by the literal of its value, set apart by blanks
(`WrittenOut`); everything else stays as it is.

- The lexer gives the literals where it gave the parameters, and all
  other lexemes as before: a lexeme is only ever followed by the same
  character or by a blank (`WrittenOut.scan`). No quote and no backslash
  of a value can end its literal.
- The grammar allows an operand that is a literal wherever it allows a
  parameter, and derives the same query (`rewriting_writtenOut`). The
  places of TOP and LIMIT want an integer, which an accepted value is.
- The literals have the values of the parameters, so the query has the
  same meaning without any (`RawQuery.query_writtenOut`).
-/

namespace DocStore

open Lexeme

/-! ## Tokens -/

section Tokens

variable {style : Style} {values : Parameters} {t : Token}

/-- The value of the parameter can be written as a literal. -/
def Token.HasLiteral (style : Style) (values : Parameters) (t : Token) : Prop :=
  ∃ v, values.get? t.text = some v ∧ (style v).isSome = true

/-- The token, or the literal in place of a parameter; a parameter that
cannot be written out counts as null. -/
def Token.writtenOut (style : Style) (values : Parameters) (t : Token) : Token :=
  if t.kind = .parameter then
    let l := ((values.get? t.text).bind style).getD (ofWord "null")
    ⟨l.kind, t.position, String.ofList l.text⟩
  else
    t

theorem Token.writtenOut_of_ne (h : t.kind ≠ .parameter) : t.writtenOut style values = t :=
  if_neg h

theorem Token.writtenOut_of_kind {kind : TokenKind} (h : t.kind = kind)
    (hkind : kind ≠ .parameter) : t.writtenOut style values = t :=
  writtenOut_of_ne (h ▸ hkind)

theorem Token.position_writtenOut : (t.writtenOut style values).position = t.position := by
  unfold writtenOut
  split <;> rfl

/-- What stands in place of a parameter is the literal of its value. -/
theorem Token.HasLiteral.exists_lexeme (h : t.HasLiteral style values)
    (ht : t.kind = .parameter) : ∃ v l, values.get? t.text = some v ∧ style v = some l ∧
      t.writtenOut style values = ⟨l.kind, t.position, String.ofList l.text⟩ := by
  obtain ⟨v, hv, hl⟩ := h
  obtain ⟨l, hl⟩ := Option.isSome_iff_exists.mp hl
  refine ⟨v, l, hv, hl, ?_⟩
  simp only [writtenOut, ht, if_true, hv, Option.bind_some, hl, Option.getD_some]

theorem Token.literal?_writtenOut (hstyle : style.Faithful) (h : t.HasLiteral style values)
    (ht : t.kind = .parameter) :
    (t.writtenOut style values).kind.literal? = values.get? t.text := by
  obtain ⟨v, l, hv, hl, hout⟩ := h.exists_lexeme ht
  rw [hout, hv]
  exact (hstyle v l hl).2

/-- In place of a parameter stands a literal of some kind. -/
theorem Token.isSome_literal?_writtenOut (hstyle : style.Faithful) (ht : t.kind = .parameter) :
    (t.writtenOut style values).kind.literal?.isSome = true := by
  rw [writtenOut, if_pos ht]
  cases hl : (values.get? t.text).bind style with
  | none =>
      simp only [Option.getD_none, kind_ofWord isLexeme_null rfl]
      rfl
  | some l =>
      obtain ⟨v, -, hl⟩ := Option.bind_eq_some_iff.mp hl
      simp only [Option.getD_some, (hstyle v l hl).2]
      rfl

end Tokens

/-! ## Queries as written -/

namespace RawExpr

mutual

/-- The expression with literals in place of parameters. -/
def writtenOut (style : Style) (values : Parameters) : RawExpr → RawExpr
  | literal t => literal t
  | parameter t => literal (t.writtenOut style values)
  | path p => path p
  | call name args => call name (writtenOutAll style values args)
  | not word e => not word (writtenOut style values e)
  | binary op sign l r => binary op sign (writtenOut style values l) (writtenOut style values r)

def writtenOutAll (style : Style) (values : Parameters) : List RawExpr → List RawExpr
  | [] => []
  | e :: es => writtenOut style values e :: writtenOutAll style values es

end

theorem writtenOutAll_eq_map (style : Style) (values : Parameters) (es : List RawExpr) :
    writtenOutAll style values es = es.map (writtenOut style values) := by
  induction es with
  | nil => rfl
  | cons e es ih => rw [writtenOutAll, ih, List.map_cons]

theorem onLeaves_writtenOut (style : Style) (values : Parameters) :
    OnLeaves id (writtenOut style values) where
  expr_path p := rfl
  expr_call name args := by rw [writtenOut, writtenOutAll_eq_map]
  expr_not word e := rfl
  expr_binary op sign l r := rfl

/-- No values are needed for literals. -/
theorem keepsRules_writtenOut (style : Style) (values : Parameters) (ctx : ParseContext) :
    KeepsRules ctx { ctx with parameters := [] } id (writtenOut style values) where
  toOnLeaves := onLeaves_writtenOut style values
  registry := rfl
  literal t := admitted_literal t
  parameter _ _ := admitted_literal _

section Meaning

variable {style : Style} {values : Parameters}

mutual

/-- The literals mean what the parameters stand for. -/
theorem expr_writtenOut (hstyle : style.Faithful) (aliases : List String) : ∀ e : RawExpr,
    (∀ t ∈ e.parameters, t.kind = .parameter ∧ t.HasLiteral style values) →
      (e.writtenOut style values).expr [] aliases = e.expr values aliases
  | literal t, _ => rfl
  | parameter t, h => by
      obtain ⟨ht, hliteral⟩ := h t (by simp [parameters])
      rw [writtenOut, expr, expr, t.literal?_writtenOut hstyle hliteral ht,
        t.position_writtenOut]
  | path p, _ => rfl
  | call name args, h => by
      rw [writtenOut, expr, expr, exprAll_writtenOutAll hstyle aliases args h]
  | not word e, h => by
      rw [writtenOut, expr, expr, expr_writtenOut hstyle aliases e h]
  | binary op sign l r, h => by
      rw [writtenOut, expr, expr,
        expr_writtenOut hstyle aliases l fun t ht => h t (List.mem_append_left _ ht),
        expr_writtenOut hstyle aliases r fun t ht => h t (List.mem_append_right _ ht)]

theorem exprAll_writtenOutAll (hstyle : style.Faithful) (aliases : List String) :
    ∀ es : List RawExpr,
    (∀ t ∈ parametersAll es, t.kind = .parameter ∧ t.HasLiteral style values) →
      exprAll [] aliases (writtenOutAll style values es) = exprAll values aliases es
  | [], _ => rfl
  | e :: es, h => by
      rw [writtenOutAll, exprAll, exprAll,
        expr_writtenOut hstyle aliases e fun t ht => h t (List.mem_append_left _ ht),
        exprAll_writtenOutAll hstyle aliases es fun t ht => h t (List.mem_append_right _ ht)]

end

end Meaning

end RawExpr

section Queries

variable {style : Style} {values : Parameters} {tokens rest : List Token} {raw : RawQuery}

theorem map_writtenOut_of_kind {t : Token} {kind : TokenKind} (h : t.kind = kind)
    (hkind : kind ≠ .parameter) (rest : List Token) :
    (t :: rest).map (Token.writtenOut style values) =
      t :: rest.map (Token.writtenOut style values) := by
  rw [List.map_cons, Token.writtenOut_of_kind h hkind]

theorem DerivesNames.writtenOut {names : List String} (h : DerivesNames tokens names rest) :
    DerivesNames (tokens.map (Token.writtenOut style values)) names
      (rest.map (Token.writtenOut style values)) := by
  induction h with
  | nil => exact .nil
  | @cons point name _ _ _ hpoint hname h ih =>
      have hkind : name.kind ≠ .parameter := by
        intro hkind
        rw [hkind] at hname
        cases hname
      rw [map_writtenOut_of_kind hpoint (by decide), map_writtenOut_of_kind rfl hkind]
      exact .cons hpoint hname ih

theorem DerivesAs.writtenOut {name : String} (h : DerivesAs tokens name rest) :
    DerivesAs (tokens.map (Token.writtenOut style values)) name
      (rest.map (Token.writtenOut style values)) := by
  obtain ⟨hword, hname⟩ := h
  rw [map_writtenOut_of_kind hword (by decide), map_writtenOut_of_kind hname (by decide)]
  exact .mk hword hname

theorem DerivesAlias.writtenOut {name : String} (h : DerivesAlias tokens name rest) :
    DerivesAlias (tokens.map (Token.writtenOut style values)) name
      (rest.map (Token.writtenOut style values)) := by
  cases h with
  | named h => exact .named h.writtenOut
  | bare hname =>
      rw [map_writtenOut_of_kind hname (by decide)]
      exact .bare hname

/-- Writing literals in place of parameters takes phrases to phrases. -/
theorem rewriting_writtenOut (hstyle : style.Faithful) :
    Rewriting (List.map (Token.writtenOut style values)) id
      (RawExpr.writtenOut style values) where
  toOnLeaves := RawExpr.onLeaves_writtenOut style values
  nil := rfl
  joint h hjoint rest := map_writtenOut_of_kind h (by rintro rfl; cases hjoint) rest
  output h := h.writtenOut
  leading := by
    rintro _ _ _ ⟨hstart, h⟩ -
    rw [map_writtenOut_of_kind hstart (by decide)]
    exact .mk hstart h.writtenOut
  head hname hopening rest := by
    rw [map_writtenOut_of_kind hname (by decide), map_writtenOut_of_kind hopening (by decide)]
  literal {t} ht rest := by
    have hkind : t.kind ≠ .parameter := by
      intro hkind
      rw [hkind] at ht
      cases ht
    rw [map_writtenOut_of_kind rfl hkind]
    exact .literal ht
  parameter ht rest := .literal (Token.isSome_literal?_writtenOut hstyle ht)

/-- The query with literals in place of parameters. -/
def RawQuery.writtenOut (style : Style) (values : Parameters) (q : RawQuery) : RawQuery :=
  { q with
    top := q.top.map (·.writtenOut style values)
    where? := q.where?.map (·.writtenOut style values)
    limit := q.limit.map (·.writtenOut style values) }

theorem RawQuery.rows_writtenOut :
    (raw.writtenOut style values).rows = raw.rows.map (·.writtenOut style values) := by
  simp only [rows, writtenOut, List.map_append, Option.toList_map]

theorem DerivesQuery.isRowCount (h : DerivesQuery tokens raw) : ∀ t ∈ raw.rows, t.IsRowCount := by
  have hrows : ∀ {clause tokens rest} {t? : Option Token},
      Maybe (DerivesRows clause) tokens t? rest → ∀ t ∈ t?.toList, t.IsRowCount := by
    intro clause tokens rest t? h
    cases h with
    | absent => simp
    | present h =>
        obtain ⟨-, ht⟩ := h
        simpa [Token.IsRowCount] using ht
  obtain ⟨-, htop, -, -, -, -, -, -, hlimit⟩ := h
  intro t ht
  exact (List.mem_append.mp ht).elim (hrows htop t) (hrows hlimit t)

section WrittenOut

variable {registry : Registry} (hstyle : style.Faithful) (hraw : DerivesQuery tokens raw)
  (hadmitted : raw.Admitted registry values)
  (hliterals : ∀ t ∈ parameterTokens tokens, t.HasLiteral style values)

include hstyle hraw hadmitted hliterals

/-- A number of rows is an integer in any case, the one that the
parameter stands for. -/
theorem RawQuery.integer_of_rows {t : Token} (ht : t ∈ raw.rows) :
    ∃ n : Nat, t.rowValue? values = some (.int n) ∧
      (t.writtenOut style values).kind = .integer n := by
  obtain ⟨n, hn⟩ := hadmitted.counts t ht
  refine ⟨n, hn, ?_⟩
  rcases hraw.isRowCount t ht with ⟨m, hkind⟩ | hkind
  · have hm : m = n := by simpa [Token.rowValue?, hkind] using hn
    rw [Token.writtenOut_of_kind hkind (by simp), hkind, hm]
  · have hvalue : values.get? t.text = some (.int n) := by simpa [Token.rowValue?, hkind] using hn
    have hliteral := hliterals t (mem_parameterTokens.mpr ⟨hraw.subset.2 ht, hkind⟩)
    exact TokenKind.eq_integer_of_literal?
      ((Token.literal?_writtenOut hstyle hliteral hkind).trans hvalue)

theorem DerivesQuery.writtenOut :
    DerivesQuery (tokens.map (Token.writtenOut style values)) (raw.writtenOut style values) := by
  have hf : Rewriting (List.map (Token.writtenOut style values)) id
      (RawExpr.writtenOut style values) := rewriting_writtenOut hstyle
  have hrow : ∀ t ∈ raw.rows, t.IsRowCount → (t.writtenOut style values).IsRowCount ∧
      ∀ rest : List Token, (t :: rest).map (Token.writtenOut style values) =
        t.writtenOut style values :: rest.map (Token.writtenOut style values) := by
    intro t ht _
    obtain ⟨n, -, hn⟩ := RawQuery.integer_of_rows hstyle hraw hadmitted hliterals ht
    exact ⟨.inl ⟨n, hn⟩, fun rest => rfl⟩
  have hquery := hraw.rewrite hf hrow fun {from_ name more rest} hfrom hname hsource => by
    have halias : Maybe DerivesAlias (more.map (Token.writtenOut style values)) raw.alias?
        (rest.map (Token.writtenOut style values)) := by
      simpa using hsource.rewrite (g := id) fun _ h => h.writtenOut
    rw [map_writtenOut_of_kind hfrom (by decide), map_writtenOut_of_kind hname (by decide)]
    exact ⟨_, rfl, halias⟩
  have hitem : RawItem.onPath id = id := rfl
  have hkey : RawKey.onPath id = id := rfl
  simp only [hitem, hkey, id_eq, List.map_id', Option.map_id'] at hquery
  exact hquery

theorem RawQuery.Admitted.writtenOut : (raw.writtenOut style values).Admitted registry [] := by
  refine RawQuery.admitted_of_where? ⟨registry, [], raw.aliases, .start⟩ ?_ ?_ ?_ hadmitted.alone
  · intro e he
    obtain ⟨e, hwhere, rfl⟩ := Option.map_eq_some_iff.mp he
    exact (RawExpr.keepsRules_writtenOut style values _).admitted e
      (hadmitted.where? raw.aliases .start e hwhere)
  · intro t ht
    rw [RawQuery.rows_writtenOut] at ht
    obtain ⟨row, hrow, rfl⟩ := List.mem_map.mp ht
    obtain ⟨n, -, hn⟩ := RawQuery.integer_of_rows hstyle hraw hadmitted hliterals hrow
    exact ⟨n, by rw [Token.rowValue?, hn]⟩
  · simpa [RawQuery.writtenOut] using hadmitted.exclusive

/-- The query means what it meant, and needs no values for that. -/
theorem RawQuery.query_writtenOut (text : String) :
    (raw.writtenOut style values).query [] text = raw.query values text := by
  have hlimit : (raw.writtenOut style values).limit? [] = raw.limit? values := by
    rw [limit?, limit?, rows_writtenOut, List.head?_map]
    cases hrows : raw.rows with
    | nil => rfl
    | cons t rest =>
        obtain ⟨n, hvalue, hn⟩ := integer_of_rows hstyle hraw hadmitted hliterals
          (hrows ▸ List.mem_cons_self .. : t ∈ raw.rows)
        have hliteral : (t.writtenOut style values).rowValue? [] = some (.int n) := by
          rw [Token.rowValue?, hn]
        simp only [List.head?_cons, Option.map_some, Option.bind_some, hvalue, hliteral]
  have hwhere : (raw.writtenOut style values).where?.map (·.expr [] raw.aliases) =
      raw.where?.map (·.expr values raw.aliases) := by
    cases he : raw.where? with
    | none => simp [writtenOut, he]
    | some e =>
        simp only [writtenOut, he, Option.map_some, Option.some.injEq]
        refine RawExpr.expr_writtenOut hstyle raw.aliases e fun t ht => ?_
        have hmem := hraw.subset.1 (show t ∈ raw.parameters by
          rw [parameters, he]
          exact List.mem_append_left _ ht)
        exact ⟨(mem_parameterTokens.mp hmem).2, hliterals t hmem⟩
  have haliases : (raw.writtenOut style values).aliases = raw.aliases := rfl
  rw [query, query, haliases, hlimit, hwhere]
  rfl

end WrittenOut

end Queries

/-! ## Texts -/

/-- A text with literals in place of its parameters, set apart by
blanks. The text is divided into blanks and lexemes as by the lexer, and
keeps all of them but the parameters. -/
inductive WrittenOut (style : Style) (values : Parameters) : List Char → List Char → Prop where
  | nil : WrittenOut style values [] []
  | blank {b : Char} {cs ds : List Char} (hb : Text.isBlank b = true)
      (h : WrittenOut style values cs ds) : WrittenOut style values (b :: cs) (b :: ds)
  | lexeme {l : Lexeme} {c : Char} {cs after after' : List Char} (htext : l.text = c :: cs)
      (hblank : Text.isBlank c = false) (hread : read c (cs ++ after) = .ok l)
      (hkind : l.kind ≠ .parameter) (h : WrittenOut style values after after') :
      WrittenOut style values (l.text ++ after) (l.text ++ after')
  | parameter {l literal : Lexeme} {c : Char} {cs after after' gap gap' : List Char} {v : Json}
      (htext : l.text = c :: cs) (hblank : Text.isBlank c = false)
      (hread : read c (cs ++ after) = .ok l) (hkind : l.kind = .parameter)
      (hv : values.get? (String.ofList l.text) = some v) (hliteral : style v = some literal)
      (hgap : gap ≠ [] ∧ gap.all Text.isBlank = true)
      (hgap' : gap' ≠ [] ∧ gap'.all Text.isBlank = true)
      (h : WrittenOut style values after after') :
      WrittenOut style values (l.text ++ after) (gap ++ (literal.text ++ (gap' ++ after')))

theorem startsBlank_gap_append {gap : List Char} (h : gap ≠ [] ∧ gap.all Text.isBlank = true)
    (after : List Char) : StartsBlank (gap ++ after) := by
  obtain ⟨b, rest, rfl⟩ := List.exists_cons_of_ne_nil h.1
  exact startsBlank_cons (List.all_eq_true.mp h.2 b (List.mem_cons_self ..)) _

/-- What can be read in front of a blank can be read in front of any. -/
theorem Lexeme.Readable.standalone {l : Lexeme} (h : l.Readable) : l.Standalone := by
  obtain ⟨c, cs, htext, hblank, hread⟩ := h
  have hread := hread [' '] (closes_cons [] (mayFollow_blank _))
  exact standalone_of_read hblank hread

section Texts

variable {style : Style} {values : Parameters} {cs ds : List Char}

namespace WrittenOut

/-- Lexemes end in the one text as in the other: a parameter, which
stood right behind them perhaps, gives way to a blank. -/
theorem endsLike (h : WrittenOut style values cs ds) (kind : TokenKind) :
    EndsLike kind cs ds := by
  cases h with
  | nil => exact endsLike_of_head?_eq rfl kind
  | blank hb h => exact endsLike_of_head?_eq rfl kind
  | lexeme htext hblank hread hkind h =>
      rw [htext]
      exact endsLike_of_head?_eq rfl kind
  | parameter htext hblank hread hkind hv hliteral hgap hgap' h =>
      exact (startsBlank_gap_append hgap _).endsLike kind _

/-- Scanning gives the literals in place of the parameters. -/
theorem scan (hstyle : style.Faithful) (h : WrittenOut style values cs ds) {p : Position}
    {ts : TokenList} (hscan : TokenList.scan p 0 cs = .ok ts) (p' : Position) :
    ∃ ts', TokenList.scan p' 0 ds = .ok ts' ∧ ts'.tokens.map Token.lexeme =
      (ts.tokens.map (Token.writtenOut style values)).map Token.lexeme := by
  induction h generalizing p p' ts with
  | nil =>
      cases hscan
      exact ⟨⟨[], p'⟩, rfl, rfl⟩
  | @blank b cs ds hb h ih =>
      have hgap : [b].all Text.isBlank = true := by simpa using hb
      obtain ⟨ts', hts', hmap⟩ := ih ((TokenList.scan_gap hgap p cs).symm.trans hscan) (p'.next b)
      exact ⟨ts', (TokenList.scan_gap hgap p' ds).trans hts', hmap⟩
  | @lexeme l c cs after after' htext hblank hread hkind h ih =>
      rw [TokenList.scan_of_read htext hblank hread, map_eq_ok_iff] at hscan
      obtain ⟨us, hus, rfl⟩ := hscan
      obtain ⟨us', hus', hmap⟩ := ih hus (p'.advance l.text)
      have hread' := read_append_of_endsLike htext hread (h.endsLike l.kind)
      refine ⟨_, (TokenList.scan_of_read htext hblank hread' p').trans
        (map_eq_ok_iff.mpr ⟨us', hus', rfl⟩), ?_⟩
      have hkept : ∀ p, (⟨l.kind, p, String.ofList l.text⟩ : Token).writtenOut style values =
          ⟨l.kind, p, String.ofList l.text⟩ := fun _ => Token.writtenOut_of_ne hkind
      simp only [TokenList.cons, List.map_cons, hmap, hkept]
      rfl
  | @parameter l literal c cs after after' gap gap' v htext hblank hread hkind hv hliteral hgap
      hgap' h ih =>
      rw [TokenList.scan_of_read htext hblank hread, map_eq_ok_iff] at hscan
      obtain ⟨us, hus, rfl⟩ := hscan
      obtain ⟨q, p₁, hgapped⟩ := TokenList.scan_gap_append (hstyle v literal hliteral).1.standalone
        hgap.2 (startsBlank_gap_append hgap' after') p'
      obtain ⟨us', hus', hmap⟩ := ih hus (p₁.advance gap')
      refine ⟨_, hgapped.trans (map_eq_ok_iff.mpr
        ⟨us', (TokenList.scan_gap hgap'.2 p₁ after').trans hus', rfl⟩), ?_⟩
      simp only [TokenList.cons, List.map_cons, hmap, Token.writtenOut, hkind, if_true, hv,
        Option.bind_some, hliteral, Option.getD_some]
      rfl

end WrittenOut

/-- A text whose parameters have literals can be written out. By
induction on the text, passing over what belongs to the lexeme before. -/
theorem exists_writtenOut {p : Position} {skip : Nat} {ts : TokenList}
    (hscan : TokenList.scan p skip cs = .ok ts)
    (h : ∀ t ∈ parameterTokens ts.tokens, t.HasLiteral style values) :
    ∃ ds, WrittenOut style values (cs.drop skip) ds := by
  induction cs generalizing p skip ts with
  | nil => exact ⟨[], by rw [List.drop_nil]; exact .nil⟩
  | cons c rest ih =>
      cases skip with
      | succ skip => exact ih hscan h
      | zero =>
          rcases TokenList.scan_cons_cases hscan with
            ⟨hblank, hrest⟩ | ⟨l, us, hblank, hread, hrest, rfl⟩
          · obtain ⟨ds, hds⟩ := ih hrest h
            exact ⟨c :: ds, .blank hblank hds⟩
          · obtain ⟨cs, after, htext, rfl, -⟩ := readAgain_of_read hread
            have hbehind : ∀ t ∈ parameterTokens us.tokens, t.HasLiteral style values :=
              fun t ht => h t (parameterTokens_subset (List.suffix_cons ..) ht)
            obtain ⟨ds, hds⟩ := ih hrest hbehind
            rw [htext, List.length_cons, Nat.add_sub_cancel, List.drop_left] at hds
            rw [List.drop_zero, ← List.cons_append, ← htext]
            by_cases hkind : l.kind = .parameter
            · obtain ⟨v, hv, hliteral⟩ :=
                h _ (mem_parameterTokens.mpr ⟨List.mem_cons_self .., hkind⟩)
              obtain ⟨literal, hliteral⟩ := Option.isSome_iff_exists.mp hliteral
              have hgap : [' '] ≠ [] ∧ [' '].all Text.isBlank = true := by decide
              exact ⟨_, .parameter htext hblank hread hkind hv hliteral hgap hgap hds⟩
            · exact ⟨_, .lexeme htext hblank hread hkind hds⟩

example : WrittenOut .shortLiterals [("@p", .str "it's")] ['a', '=', '@', 'p']
    ['a', '=', ' ', '\'', 'i', 't', '\\', '\'', 's', '\'', ' '] := by
  have hgap : [' '] ≠ [] ∧ [' '].all Text.isBlank = true := by decide
  have hliteral : Style.shortLiterals (.str "it's") = some (ofString "it's") := rfl
  have hp : WrittenOut .shortLiterals [("@p", .str "it's")] ['@', 'p'] _ :=
    .parameter (l := ⟨.parameter, ['@', 'p']⟩) rfl rfl rfl rfl rfl hliteral hgap hgap .nil
  exact .lexeme (l := ⟨.identifier, ['a']⟩) rfl rfl rfl (by decide) <|
    .lexeme (l := ⟨.comparison .eq, ['=']⟩) rfl rfl rfl (by decide) hp

end Texts

/-! ## Parsing -/

section Parsing

variable {registry : Registry} {text : String} {given : Json} {q : Query} {tokens : List Token}
  {stop : Position}

/-- A text that is written out is parsed without values, as it was with
them. -/
theorem parse_writtenOut_of_faithful {style : Style} (hstyle : style.Faithful)
    (htext : TokenList.ofText text = .ok ⟨tokens, stop⟩)
    (h : Query.parse registry text given = .ok q) {values : Parameters}
    (hvalues : Parameters.normalize given = .ok values)
    (hliterals : ∀ t ∈ parameterTokens tokens, t.HasLiteral style values) {text' : String}
    (hout : WrittenOut style values text.toList text'.toList) :
    ∃ q', Query.parse registry text' .null = .ok q' ∧ q'.unplaced = q.unplaced := by
  obtain ⟨values', raw, hvalues', hraw, hadmitted, rfl⟩ := exists_derives_of_parse htext h
  obtain rfl := Except.ok.inj (hvalues'.symm.trans hvalues)
  obtain ⟨⟨tokens', stop'⟩, htext', hmap⟩ := hout.scan hstyle htext .start
  rw [← RawQuery.query_writtenOut hstyle hraw hadmitted hliterals]
  exact exists_parse_of_derives htext' hmap rfl
    (hraw.writtenOut hstyle hadmitted hliterals) (hadmitted.writtenOut hstyle hraw hliterals) text

/-- **Binding a parameter is writing its literal.** If the values of the
parameters of a text have literals, the text can be written out with
them, and however it is, it is parsed without values to the same query,
up to text and places. Values of any kind leave the structure of the
query alone: with all of them, it is the same but for the constants in
the places of the parameters and for the limit. -/
theorem parse_writtenOut (htext : TokenList.ofText text = .ok ⟨tokens, stop⟩)
    (h : Query.parse registry text given = .ok q) :
    (∀ values, Parameters.normalize given = .ok values →
      (∀ t ∈ parameterTokens tokens, t.HasLiteral .shortLiterals values) →
        (∃ text' : String, WrittenOut .shortLiterals values text.toList text'.toList) ∧
          ∀ text' : String, WrittenOut .shortLiterals values text.toList text'.toList →
            ∃ q', Query.parse registry text' .null = .ok q' ∧ q'.unplaced = q.unplaced) ∧
      ∀ given' q', Query.parse registry text given' = .ok q' →
        q.masked ((parameterTokens tokens).map (·.position)) =
          q'.masked ((parameterTokens tokens).map (·.position)) := by
  refine ⟨fun values hvalues hliterals => ⟨?_, fun text' hout => ?_⟩, fun given' q' h' => ?_⟩
  · obtain ⟨ds, hds⟩ := exists_writtenOut htext hliterals
    exact ⟨String.ofList ds, by rwa [String.toList_ofList]⟩
  · exact parse_writtenOut_of_faithful faithful_shortLiterals htext h hvalues hliterals hout
  · exact masked_eq_of_parse htext h h'

end Parsing

/-- A string with a quote and a backslash, right behind an operator, and
a number of rows. -/
theorem parse_writtenOut_quoted :
    let text := "SELECT * FROM c WHERE c.a=@p LIMIT @n"
    let text' := "SELECT * FROM c WHERE c.a= 'it\\'s \\\\'  LIMIT  2 "
    let given : Json := .obj [("p", .str "it's \\"), ("n", .int 2)]
    let other : Json := .obj [("p", .str "2"), ("n", .int 3)]
    let values : Parameters := [("@p", .str "it's \\"), ("@n", .int 2)]
    let query (text s : String) (column n : Nat) : Query :=
      ⟨text, .everything, "c", none,
        some (.binary (.compare .eq) (.property "c.a" ["a"] (some ⟨1, 23, 22⟩))
          (.constant (some (.str s)) (some ⟨1, column + 1, column⟩)) (some ⟨1, 26, 25⟩)),
        [], some n⟩
    Query.parse .standard text given = .ok (query text "it's \\" 26 2) ∧
      WrittenOut .shortLiterals values text.toList text'.toList ∧
      Query.parse .standard text' .null = .ok (query text' "it's \\" 27 2) ∧
      (query text' "it's \\" 27 2).unplaced = (query text "it's \\" 26 2).unplaced ∧
      Query.parse .standard text other = .ok (query text "2" 26 3) ∧
      (query text "it's \\" 26 2).masked [⟨1, 27, 26⟩, ⟨1, 36, 35⟩] =
        (query text "2" 26 3).masked [⟨1, 27, 26⟩, ⟨1, 36, 35⟩] := by
  intro text text' given other values query
  have hq : Query.parse .standard text given = .ok (query text "it's \\" 26 2) :=
    eq_ok_of_toOption (by decide +kernel)
  have hq' : Query.parse .standard text other = .ok (query text "2" 26 3) :=
    eq_ok_of_toOption (by decide +kernel)
  have hwritten : Query.parse .standard text' .null = .ok (query text' "it's \\" 27 2) :=
    eq_ok_of_toOption (by decide +kernel)
  have hout : WrittenOut .shortLiterals values text.toList text'.toList := by
    have hgap : [' '] ≠ [] ∧ [' '].all Text.isBlank = true := by decide
    have htwo : Style.shortLiterals (.int 2) = some (ofInt 2) := rfl
    have hquoted : Style.shortLiterals (.str "it's \\") = some (ofString "it's \\") := rfl
    have hn : WrittenOut .shortLiterals values "@n".toList " 2 ".toList :=
      .parameter (l := ⟨.parameter, "@n".toList⟩) rfl rfl rfl rfl rfl htwo hgap hgap .nil
    have hlimit : WrittenOut .shortLiterals values " LIMIT @n".toList " LIMIT  2 ".toList :=
      .blank rfl <| .lexeme (l := ⟨.keyword .limit, "LIMIT".toList⟩) rfl rfl rfl nofun <|
        .blank rfl hn
    have hp : WrittenOut .shortLiterals values "@p LIMIT @n".toList
        " 'it\\'s \\\\'  LIMIT  2 ".toList :=
      .parameter (l := ⟨.parameter, "@p".toList⟩) rfl rfl rfl rfl rfl hquoted hgap hgap hlimit
    have hwhere : WrittenOut .shortLiterals values " WHERE c.a=@p LIMIT @n".toList
        " WHERE c.a= 'it\\'s \\\\'  LIMIT  2 ".toList :=
      .blank rfl <| .lexeme (l := ⟨.keyword .where_, "WHERE".toList⟩) rfl rfl rfl nofun <|
        .blank rfl <| .lexeme (l := ⟨.identifier, ['c']⟩) rfl rfl rfl nofun <|
        .lexeme (l := ⟨.sign .dot, ['.']⟩) rfl rfl rfl nofun <|
        .lexeme (l := ⟨.identifier, ['a']⟩) rfl rfl rfl nofun <|
        .lexeme (l := ⟨.comparison .eq, ['=']⟩) rfl rfl rfl nofun hp
    show WrittenOut .shortLiterals values "SELECT * FROM c WHERE c.a=@p LIMIT @n".toList
      "SELECT * FROM c WHERE c.a= 'it\\'s \\\\'  LIMIT  2 ".toList
    exact .lexeme (l := ⟨.keyword .select, "SELECT".toList⟩) rfl rfl rfl nofun <| .blank rfl <|
      .lexeme (l := ⟨.sign .star, ['*']⟩) rfl rfl rfl nofun <| .blank rfl <|
      .lexeme (l := ⟨.keyword .from_, "FROM".toList⟩) rfl rfl rfl nofun <| .blank rfl <|
      .lexeme (l := ⟨.identifier, ['c']⟩) rfl rfl rfl nofun hwhere
  obtain ⟨⟨tokens, stop⟩, htext, hnames⟩ : ∃ ts, TokenList.ofText text = .ok ts ∧
      decide ((parameterTokens ts.tokens).map (fun t => (t.text, t.position)) =
        [("@p", ⟨1, 27, 26⟩), ("@n", ⟨1, 36, 35⟩)]) = true :=
    exists_ok_of_any (by decide +kernel)
  have hnames := of_decide_eq_true hnames
  have hplaces : (parameterTokens tokens).map (·.position) = [⟨1, 27, 26⟩, ⟨1, 36, 35⟩] := by
    have hpairs := congrArg (List.map Prod.snd) hnames
    rwa [List.map_map] at hpairs
  have hliterals : ∀ t ∈ parameterTokens tokens, t.HasLiteral .shortLiterals values := by
    intro t ht
    have hname := List.mem_map_of_mem (f := fun t => (t.text, t.position)) ht
    rw [hnames, List.mem_cons, List.mem_singleton, Prod.mk.injEq, Prod.mk.injEq] at hname
    rcases hname with ⟨hname, -⟩ | ⟨hname, -⟩
    · exact ⟨.str "it's \\", by rw [hname]; rfl, rfl⟩
    · exact ⟨.int 2, by rw [hname]; rfl, by decide +kernel⟩
  obtain ⟨hparsed, hmasked⟩ := parse_writtenOut htext hq
  obtain ⟨q, hparse, hsame⟩ := (hparsed values rfl hliterals).2 text' hout
  obtain rfl := Except.ok.inj (hwritten.symm.trans hparse)
  exact ⟨hq, hout, hwritten, hsame, hq', hplaces ▸ hmasked other _ hq'⟩

end DocStore
