import DocStore.Proofs.Query.PrintedQuery

/-!
# Parsing what was printed

The parser inverts the printer (`parse_print`): the text of a query,
with the parameters that its constants need, is parsed as the query. The
lexemes of a query are all readable, so scanning gives them back
(`TokenList.scan_render`); the parameters have the names that the
printer gave them (`binds_normalize`); the rest is `readQuery_write`.

Integers of any length cannot all be literals, for the lexer refuses
those of more than `Text.maxIntDigits` digits, and with it the whole
text. Longer integers have to be parameters.
-/

namespace DocStore

open Lexeme

/-! ## Literals -/

theorem isLexeme_null : IsLexeme .null "null" :=
  ⟨_, _, rfl, rfl⟩

theorem isLexeme_boolean (b : Bool) :
    IsLexeme (.boolean b) (if b then "true" else "false") := by
  cases b <;> exact ⟨_, _, rfl, rfl⟩

/-- What is written as a literal is read as the constant. -/
theorem faithful_shortLiterals : Style.shortLiterals.Faithful := by
  intro v l h
  cases v with
  | null =>
      obtain rfl := Option.some.inj h
      refine ⟨readable_ofWord isLexeme_null rfl, ?_⟩
      rw [kind_ofWord isLexeme_null rfl]
      rfl
  | bool b =>
      obtain rfl := Option.some.inj h
      refine ⟨readable_ofWord (isLexeme_boolean b) rfl, ?_⟩
      rw [kind_ofWord (isLexeme_boolean b) rfl]
      rfl
  | int n =>
      rw [Style.shortLiterals] at h
      split at h
      · rename_i hlen
        obtain rfl := Option.some.inj h
        exact ⟨readable_ofInt hlen, rfl⟩
      · cases h
  | str s =>
      obtain rfl := Option.some.inj h
      exact ⟨readable_ofString s, rfl⟩
  | float x => cases h
  | arr vs => cases h
  | obj fields => cases h

theorem parameterName_all (k : Nat) : (Style.parameterName k).all isWordChar = true := by
  rw [Style.parameterName, List.all_cons, Bool.and_eq_true]
  refine ⟨by decide, List.all_eq_true.mpr fun c hc => ?_⟩
  have hdigit : c.isDigit = true := isDigit_toDigits hc
  have hrange := (isDigit_iff c).mp hdigit
  simp [isWordChar, Text.isLetterOrNumber, Char.isAlphanum, hdigit,
    show c.toNat < 128 by omega]

theorem readable_write_constant {style : Style} (hstyle : style.Faithful) (k : Nat) (v : Json) :
    (style.write k v).Readable := by
  rw [Style.write]
  cases hv : style v with
  | some l => exact (hstyle v l hv).1
  | none =>
      exact readable_ofParameter (by simp [Style.parameterName]) (parameterName_all k)

/-! ## Readable lexemes -/

/-- Every lexeme is readable. -/
def AllReadable (ls : List Lexeme) : Prop :=
  ∀ l ∈ ls, l.Readable

@[simp] theorem allReadable_nil : AllReadable [] := by
  simp [AllReadable]

@[simp] theorem allReadable_cons {l : Lexeme} {ls : List Lexeme} :
    AllReadable (l :: ls) ↔ l.Readable ∧ AllReadable ls :=
  List.forall_mem_cons

@[simp] theorem allReadable_append {ls ms : List Lexeme} :
    AllReadable (ls ++ ms) ↔ AllReadable ls ∧ AllReadable ms :=
  List.forall_mem_append

theorem readable_writePath {aliases : List String} {path : String} {segments : List String}
    (h : IsPath aliases path segments) : AllReadable (writePath path) := by
  obtain ⟨first, rest, hnames, hfirst, hrest, -⟩ := h
  rw [writePath_cons hnames, allReadable_cons]
  refine ⟨readable_ofWord hfirst rfl, fun l hl => ?_⟩
  obtain ⟨s, hs, hl⟩ := List.mem_flatMap.mp hl
  obtain ⟨kind, hkind, hword⟩ := hrest s hs
  have hboth : AllReadable [ofSign .dot, ofWord s] := by
    simp [readable_ofWord hword hkind]
  exact hboth l hl

theorem readable_parenthesize {ls : List Lexeme} (h : AllReadable ls) :
    AllReadable (parenthesize ls) := by
  simp [parenthesize, h]

theorem readable_bracket (n : Nat) (e : Expr) {ls : List Lexeme} (h : AllReadable ls) :
    AllReadable (e.bracket n ls) := by
  unfold Expr.bracket
  split
  · exact readable_parenthesize h
  · exact h

theorem readable_operator (op : BinaryOp) : op.lexeme.Readable := by
  cases op with
  | compare c => exact readable_ofComparison c
  | and => exact readable_ofKeyword .and
  | or => exact readable_ofKeyword .or

mutual

theorem readable_write_expr {registry : Registry} {aliases : List String} {style : Style}
    (hstyle : style.Faithful) (k : Nat) :
    ∀ e : Expr, e.Printable registry aliases → AllReadable (e.write style k)
  | .constant (some v) p, _ => by
      rw [Expr.write, allReadable_cons]
      exact ⟨readable_write_constant hstyle k v, allReadable_nil⟩
  | .constant none _, h => absurd rfl h
  | .property path segments p, h => readable_writePath h
  | .unary op e p, h => by
      rw [Expr.write, allReadable_cons]
      exact ⟨readable_ofKeyword .not, readable_bracket 2 e (readable_write_expr hstyle k e h.2)⟩
  | .binary op l r p, h => by
      rw [Expr.write, allReadable_append, allReadable_cons]
      exact ⟨readable_bracket _ l (readable_write_expr hstyle k l h.1), readable_operator op,
        readable_bracket _ r (readable_write_expr hstyle _ r h.2)⟩
  | .call name args p, h => by
      rw [Expr.write, allReadable_cons]
      exact ⟨readable_ofWord h.1 rfl,
        readable_parenthesize (readable_writeArgs hstyle k args h.2.2.2)⟩

theorem readable_writeArgs {registry : Registry} {aliases : List String} {style : Style}
    (hstyle : style.Faithful) (k : Nat) :
    ∀ es : List Expr, Expr.PrintableAll registry aliases es →
      AllReadable (Expr.writeArgs style k es)
  | [], _ => allReadable_nil
  | [e], h => readable_write_expr hstyle k e h.1
  | e :: f :: es, h => by
      rw [Expr.writeArgs, allReadable_append, allReadable_cons]
      exact ⟨readable_write_expr hstyle k e h.1, readable_ofSign .comma,
        readable_writeArgs hstyle _ (f :: es) h.2⟩

end

theorem readable_writeAs {name? : Option String} (h : ∀ name ∈ name?, IsName name) :
    AllReadable (writeAs name?) := by
  cases name? with
  | none => exact allReadable_nil
  | some name => simp [writeAs, readable_ofWord (h name rfl) rfl]

theorem readable_writeList {α : Type} {write : α → List Lexeme} {as : List α}
    (h : ∀ a ∈ as, AllReadable (write a)) : AllReadable (writeList write as) := by
  induction as with
  | nil => exact allReadable_nil
  | cons a as ih =>
      have ih := ih fun b hb => h b (List.mem_cons_of_mem a hb)
      cases as with
      | nil => exact h a (by simp)
      | cons b as => simp [writeList, h a (by simp), ih]

theorem readable_writeProjection {aliases : List String} {projection : Projection}
    (h : projection.Printable aliases) : AllReadable projection.write := by
  cases projection with
  | everything => simp [Projection.write]
  | items items =>
      refine readable_writeList fun item hitem => ?_
      obtain ⟨hpath, hname, -⟩ := h.2 item hitem
      rw [SelectItem.write, allReadable_append]
      exact ⟨readable_writePath hpath, readable_writeAs hname⟩

theorem readable_write {registry : Registry} {style : Style} (hstyle : style.Faithful)
    {q : Query} (h : q.Printable registry) : AllReadable (q.write style) := by
  have hwhere : AllReadable (Query.writeWhere style q.where?) := by
    cases hw : q.where? with
    | none => exact allReadable_nil
    | some e =>
        rw [Query.writeWhere, allReadable_cons]
        exact ⟨readable_ofKeyword .where_, readable_write_expr hstyle 0 e (h.condition e hw)⟩
  have horder : AllReadable (Query.writeOrderBy q.orderBy) := by
    cases ho : q.orderBy with
    | nil => exact allReadable_nil
    | cons key keys =>
        have hkeys : AllReadable (writeList SortKey.write (key :: keys)) := by
          refine readable_writeList fun k hk => ?_
          rw [SortKey.write, allReadable_append]
          exact ⟨readable_writePath (h.orderBy k (by rw [ho]; exact hk)), by simp⟩
        simp [Query.writeOrderBy, hkeys]
  have hlimit : AllReadable (Query.writeLimit style (q.whereBound style).length q.limit) := by
    cases q.limit with
    | none => exact allReadable_nil
    | some n => simp [Query.writeLimit, readable_write_constant hstyle]
  simp [Query.write, readable_writeProjection h.projection, readable_ofWord h.container rfl,
    readable_writeAs h.sourceAlias, hwhere, horder, hlimit]

/-! ## Parameters -/

theorem parameterName_injective {i j : Nat}
    (h : Style.parameterName i = Style.parameterName j) : i = j := by
  have hdigits : Nat.toDigits 10 i = Nat.toDigits 10 j := (List.cons.inj h).2
  rw [← Nat.ofDigitChars_ten_toDigits (n := i), hdigits, Nat.ofDigitChars_ten_toDigits]

/-- The entries of the parameters of a query. -/
def parameterEntries (vs : List Json) : List (String × Json) :=
  vs.mapIdx fun k v => (String.ofList ('@' :: Style.parameterName k), v)

theorem nodup_parameterEntries (vs : List Json) :
    (Table.keys (parameterEntries vs)).Nodup := by
  rw [Table.keys, List.Nodup, List.pairwise_iff_getElem]
  intro i j hi hj hij heq
  simp only [parameterEntries, List.getElem_map, List.getElem_mapIdx, String.ofList_inj,
    List.cons.injEq, true_and] at heq
  exact absurd (parameterName_injective heq) (Nat.ne_of_lt hij)

theorem canonicalName_at (name : List Char) :
    Parameters.canonicalName (String.ofList ('@' :: name)) = String.ofList ('@' :: name) := by
  rw [Parameters.canonicalName, if_pos (by simp)]

/-- The parameters of a query are found under the names that stand for
them. -/
theorem binds_normalize (vs : List Json) :
    ∃ parameters, Parameters.normalize (.obj (parameterEntries vs)) = .ok parameters ∧
      Binds parameters 0 vs := by
  have hnodup := nodup_parameterEntries vs
  refine ⟨parameterEntries vs, ?_, ?_⟩
  · rw [Parameters.normalize]
    split
    · rename_i hblank
      have hempty : parameterEntries vs = [] := List.isEmpty_iff.mp hblank
      rw [hempty]
    · have hnames : (parameterEntries vs).map (fun f => (Parameters.canonicalName f.1, f.2)) =
          parameterEntries vs := by
        refine (List.map_congr_left fun f hf => ?_).trans (List.map_id' _)
        obtain ⟨i, hi, rfl⟩ := List.mem_mapIdx.mp hf
        simp only [canonicalName_at]
      show Except.ok (Table.ofEntries _) = _
      rw [hnames, Table.ofEntries_of_nodup hnodup]
  · intro i v hv
    obtain ⟨hi, rfl⟩ := List.getElem?_eq_some_iff.mp hv
    refine Table.get?_of_mem hnodup (List.mem_mapIdx.mpr ⟨i, hi, ?_⟩)
    rw [Nat.zero_add]

/-! ## Round trip -/

theorem isBlankText_print {style : Style} (q : Query) : isBlankText (q.print style) = false := by
  obtain ⟨rest, hrest⟩ := render_cons
    (show (ofKeyword .select).text = 'S' :: "ELECT".toList from rfl) (q.write style).tail
  have htext : (q.print style).toList = 'S' :: rest := by
    rw [Query.print, renderText, String.toList_ofList]
    exact hrest
  rw [isBlankText, htext, List.all_cons, Bool.and_eq_false_iff]
  exact .inl (by decide)

/-- Queries are parsed back from any style whose literals the lexer
reads. -/
theorem parse_print_of_faithful {style : Style} (hstyle : style.Faithful) {registry : Registry}
    {q : Query} (h : q.Printable registry) :
    ∃ p, Query.parse registry (q.print style) (q.parameters style) = .ok p ∧
      p.unplaced = q.unplaced := by
  obtain ⟨tokens, stop, hscan, htokens⟩ :=
    TokenList.scan_render (readable_write hstyle h) .start
  obtain ⟨parameters, hnormal, hbinds⟩ := binds_normalize (q.bound style)
  obtain ⟨p, hread, hp⟩ : ∃ p, readQuery ⟨registry, parameters, [], stop⟩ (q.print style) tokens =
      .ok p ∧ p.unplaced = q.unplaced :=
    readQuery_write hstyle h hbinds (q.print style) htokens
  refine ⟨p, ?_, hp⟩
  have htext : TokenList.ofText (q.print style) = .ok ⟨tokens, stop⟩ := by
    rw [TokenList.ofText, Query.print, renderText, String.toList_ofList, hscan]
  rw [Query.parse, isBlankText_print, htext]
  show ((Parameters.normalize (q.parameters style)).mapError QueryRefusal.parameters >>=
    fun _ => _) = _
  rw [show Parameters.normalize (q.parameters style) = .ok parameters from hnormal]
  show (readQuery ⟨registry, parameters, [], stop⟩ (q.print style) tokens).mapError _ = _
  rw [hread]
  rfl

/-- **The parser inverts the printer**: every query that can be written
is parsed back from its text and its parameters, but for the text itself
and the places in it. -/
theorem parse_print (registry : Registry) (q : Query) (h : q.Printable registry) :
    ∃ p, Query.parse registry (q.print .shortLiterals) (q.parameters .shortLiterals) = .ok p ∧
      p.unplaced = q.unplaced :=
  parse_print_of_faithful faithful_shortLiterals h

/-- A query with a name for the document, nested operators, a call and a
parameter. -/
def nestedQuery : Query where
  text := ""
  projection := .items [⟨"c.name", ["name"], none⟩, ⟨"c", [], some "doc"⟩]
  container := "items"
  alias? := some "c"
  where? := some <| .binary .and
    (.binary .or
      (.unary .not
        (.binary (.compare .ge) (.property "c.order" ["order"] none)
          (.constant (some (.int (-3))) none) none) none)
      (.call "CONTAINS" [.property "c.tags" ["tags"] none, .constant (some (.arr [])) none] none)
      none)
    (.binary (.compare .eq)
      (.binary (.compare .eq) (.constant (some (.str "it's")) none)
        (.property "title" ["title"] none) none)
      (.constant (some (.bool true)) none) none)
    none
  orderBy := [⟨"c.size", ["size"], .descending⟩]
  limit := some 5

example : nestedQuery.print .shortLiterals =
    "SELECT c.name, c AS doc FROM items AS c WHERE (NOT c.order >= -3 OR CONTAINS(c.tags, @p0))" ++
      " AND ('it\\'s' = title) = true ORDER BY c.size DESC LIMIT 5" := by
  decide +kernel

theorem parse_print_nested :
    nestedQuery.Printable .standard ∧
      ∃ p, Query.parse .standard (nestedQuery.print .shortLiterals)
        (nestedQuery.parameters .shortLiterals) = .ok p ∧ p.unplaced = nestedQuery.unplaced := by
  have hc : IsName "c" := ⟨_, _, rfl, rfl⟩
  have hpath (name : String) (kind : TokenKind) (hkind : kind.isName = true)
      (hname : IsLexeme kind name) (hnames : pathNames ("c." ++ name) = ["c", name]) :
      IsPath ["c"] ("c." ++ name) [name] :=
    ⟨"c", [name], hnames, hc, by simpa using ⟨kind, hkind, hname⟩, by simp⟩
  have hprint : nestedQuery.Printable .standard :=
    { projection := by
        refine ⟨by simp, fun item hitem => ?_⟩
        rcases List.mem_cons.mp hitem with rfl | hitem
        · exact ⟨hpath "name" .identifier rfl ⟨_, _, rfl, rfl⟩ (by decide),
            by simp, by simp⟩
        · obtain rfl := List.mem_singleton.mp hitem
          exact ⟨⟨"c", [], by decide, hc, by simp, by decide⟩,
            by simpa using ⟨_, _, rfl, rfl⟩, by simp⟩
      container := ⟨_, _, rfl, rfl⟩
      sourceAlias := by simpa [nestedQuery] using hc
      condition := by
        rintro e ⟨⟩
        have horder := hpath "order" (.keyword .order) rfl ⟨_, _, rfl, rfl⟩ (by decide)
        have htags := hpath "tags" .identifier rfl ⟨_, _, rfl, rfl⟩ (by decide)
        have htitle : IsPath ["c"] "title" ["title"] :=
          ⟨"title", [], by decide, ⟨_, _, rfl, rfl⟩, by simp, by decide⟩
        have hcall : ∃ f, Registry.standard.lookup "CONTAINS" = some f ∧ f.arity = (2 : Nat) :=
          ⟨_, rfl, rfl⟩
        refine ⟨⟨⟨rfl, horder, by simp [Expr.Printable]⟩, ?_⟩, ?_⟩
        · exact ⟨⟨_, _, rfl, rfl⟩, by decide, hcall, htags, by simp [Expr.Printable], trivial⟩
        · exact ⟨⟨by simp [Expr.Printable], htitle⟩, by simp [Expr.Printable]⟩
      orderBy := by
        intro key hkey
        obtain rfl := List.mem_singleton.mp hkey
        exact hpath "size" .identifier rfl ⟨_, _, rfl, rfl⟩ (by decide) }
  exact ⟨hprint, parse_print .standard nestedQuery hprint⟩

/-! ## Long integers -/

/-- The lexer refuses an integer of too many digits. -/
theorem refused_ofInt {n : Int}
    (h : Text.maxIntDigits < (Nat.toDigits 10 n.natAbs).length) : TokenList.Refused (ofInt n) := by
  obtain ⟨c, cs, hcs, hblank, -⟩ := intDigits_eq_cons n
  refine ⟨c, cs, hcs, hblank, .malformedNumber (intText n), ?_⟩
  have hread := read_intDigits n hcs []
  have hnumber := number_intDigits n (closes_nil _)
  rw [if_pos h] at hnumber
  rw [List.append_nil] at hread
  rw [hread, hnumber]

/-- A text with a refused lexeme at its end is not parsed. -/
theorem parse_of_refused (registry : Registry) (given : Json) {l : Lexeme} {ls : List Lexeme}
    (h : AllReadable (l :: ls)) {bad : Lexeme} (hbad : TokenList.Refused bad) :
    ∃ e, Query.parse registry (renderText (l :: ls ++ [bad])) given = .error e := by
  obtain ⟨e, he⟩ := TokenList.scan_render_of_refused h hbad .start
  have htext : TokenList.ofText (renderText (l :: ls ++ [bad])) = .error e := by
    rw [TokenList.ofText, renderText, String.toList_ofList, he]
  rw [Query.parse]
  cases isBlankText (renderText (l :: ls ++ [bad])) with
  | true => exact ⟨_, rfl⟩
  | false =>
      rw [htext]
      exact ⟨_, rfl⟩

/-- The smallest integer that has too many digits, as a condition. -/
def longQuery : Query where
  text := ""
  projection := .everything
  container := "c"
  alias? := none
  where? := some (.constant (some (.int (10 ^ Text.maxIntDigits : Nat))) none)
  orderBy := []
  limit := none

/-- As a literal, a long integer makes the text unreadable. -/
theorem print_literals_not_parsed :
    longQuery.Printable .standard ∧
      ¬ ∃ p, Query.parse .standard (longQuery.print .literals) (longQuery.parameters .literals) =
        .ok p ∧ p.unplaced = longQuery.unplaced := by
  have hc : IsName "c" := ⟨_, _, rfl, rfl⟩
  refine ⟨⟨trivial, hc, fun name h => ?_, ?_, fun key h => ?_⟩, ?_⟩
  · exact absurd h (Option.not_mem_none name)
  · rintro e ⟨⟩
    exact Option.some_ne_none _
  · exact absurd h List.not_mem_nil
  · rintro ⟨p, hp, -⟩
    have hlong : Text.maxIntDigits <
        (Nat.toDigits 10 ((10 ^ Text.maxIntDigits : Nat) : Int).natAbs).length := by
      rw [Int.natAbs_natCast, ← Nat.not_le,
        Nat.length_toDigits_le_iff (by omega) (by decide)]
      exact Nat.lt_irrefl _
    have hread : AllReadable
        [ofKeyword .select, ofSign .star, ofKeyword .from_, ofWord "c", ofKeyword .where_] := by
      simp [readable_ofWord hc rfl]
    have hwrite : longQuery.write .literals =
        [ofKeyword .select, ofSign .star, ofKeyword .from_, ofWord "c", ofKeyword .where_] ++
          [ofInt (10 ^ Text.maxIntDigits : Nat)] := rfl
    obtain ⟨e, he⟩ :=
      parse_of_refused .standard (longQuery.parameters .literals) hread (refused_ofInt hlong)
    rw [Query.print, hwrite, he] at hp
    cases hp

end DocStore
