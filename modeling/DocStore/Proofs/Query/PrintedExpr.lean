import DocStore.Proofs.Query.Precedence

/-!
# Expressions as written

Every expression that can be written is spelled by its lexemes at its
own level (`spellsAt_write`), by induction on the expression and on the
arguments of calls. Operators are the matter of `Precedence`; this
module adds what operands are made of: constants, parameters, paths and
calls.
-/

namespace DocStore

open Lexeme

variable {ctx : ParseContext}

/-! ## Paths -/

/-- The names of a path with points between them give the path. -/
theorem intercalate_pathNames (path : String) : ".".intercalate (pathNames path) = path := by
  refine String.toList_inj.mp ?_
  rw [String.toList_intercalate, pathNames, List.map_map]
  have hid : (Text.splitAtChar '.' path.toList).map (String.toList ∘ String.ofList) =
      Text.splitAtChar '.' path.toList :=
    (List.map_congr_left fun cs _ => String.toList_ofList).trans (List.map_id' _)
  rw [hid]
  exact Text.intercalate_splitAtChar '.' path.toList

theorem spells_names {names : List String} (h : ∀ s ∈ names, IsSegment s) :
    Spells DerivesNames (names.flatMap fun s => [ofSign .dot, ofWord s]) (· = names) := by
  induction names with
  | nil => exact fun more tokens htokens => ⟨[], tokens, .nil, htokens, rfl⟩
  | cons name names ih =>
      intro more tokens htokens
      obtain ⟨kind, hkind, hword⟩ := h name (by simp)
      obtain ⟨point, rest, rfl, hpoint, -, hrest⟩ := exists_token htokens
      obtain ⟨t, rest, rfl, ht, htext, hrest⟩ := exists_token hrest
      obtain ⟨_, rest, hnames, hmore, rfl⟩ := ih (fun s hs => h s (by simp [hs])) more rest hrest
      refine ⟨_, rest, .cons hpoint ?_ hnames, hmore, ?_⟩
      · rw [ht, kind_ofWord hword hkind, hkind]
      · rw [htext.trans String.ofList_toList]

theorem writePath_cons {path first : String} {rest : List String}
    (h : pathNames path = first :: rest) :
    writePath path = ofWord first :: rest.flatMap fun s => [ofSign .dot, ofWord s] := by
  rw [writePath, h, writeNames]

/-- A path has the text that it was written from, and its segments once
the aliases are known. -/
theorem spells_path {aliases : List String} {path : String} {segments : List String}
    (h : IsPath aliases path segments) :
    Spells DerivesPath (writePath path) fun p => p.text = path ∧ p.below aliases = segments := by
  obtain ⟨first, rest, hnames, hfirst, hrest, rfl⟩ := h
  intro more tokens htokens
  rw [writePath_cons hnames] at htokens
  obtain ⟨t, ts, rfl, ht, htext, hts⟩ := exists_token htokens
  obtain ⟨_, left, hderived, hmore, rfl⟩ := spells_names hrest more ts hts
  have htext : t.text = first := htext.trans String.ofList_toList
  refine ⟨_, left, .mk (ht.trans (kind_ofWord hfirst rfl)) hderived, hmore, ?_, ?_⟩
  · rw [RawPath.text, RawPath.segments, htext, ← hnames, intercalate_pathNames]
  · rw [RawPath.below, RawPath.segments, htext]

theorem spellsAt_property {path : String} {segments : List String}
    (h : IsPath ctx.aliases path segments) (p : Option Position) :
    SpellsAt ctx 4 (writePath path) (.property path segments p) := by
  intro more tokens htokens
  obtain ⟨raw, rest, hraw, hmore, htext, hbelow⟩ := spells_path h more tokens htokens
  refine ⟨.path raw, rest, .path hraw, hmore, RawExpr.admitted_path raw, ?_⟩
  rw [RawExpr.expr, htext, hbelow]
  rfl

/-! ## Constants -/

/-- Literals are read as the constants that they are written for. -/
def Style.Faithful (style : Style) : Prop :=
  ∀ v l, style v = some l → l.Readable ∧ l.kind.literal? = some v

/-- The parameters from the `k`th on have the values. -/
def Binds (parameters : Parameters) (k : Nat) (vs : List Json) : Prop :=
  ∀ i v, vs[i]? = some v →
    parameters.get? (String.ofList ('@' :: Style.parameterName (k + i))) = some v

theorem Binds.left {parameters : Parameters} {k : Nat} {vs ws : List Json}
    (h : Binds parameters k (vs ++ ws)) : Binds parameters k vs := by
  intro i v hv
  obtain ⟨hi, -⟩ := List.getElem?_eq_some_iff.mp hv
  exact h i v (by rwa [List.getElem?_append_left hi])

theorem Binds.right {parameters : Parameters} {k : Nat} {vs ws : List Json}
    (h : Binds parameters k (vs ++ ws)) : Binds parameters (k + vs.length) ws := by
  intro i v hv
  rw [Nat.add_assoc]
  refine h (vs.length + i) v ?_
  rwa [List.getElem?_append_right (by omega), Nat.add_sub_cancel_left]

/-- A constant is a literal that stands for it, or a parameter that is
bound to it. -/
theorem constant_cases {style : Style} (hstyle : style.Faithful) {parameters : Parameters}
    {k : Nat} {v : Json} (hbinds : Binds parameters k (style.bound v)) {t : Token}
    (ht : t.kind = (style.write k v).kind)
    (htext : t.text = String.ofList (style.write k v).text) :
    t.kind.literal? = some v ∨ (t.kind = .parameter ∧ parameters.get? t.text = some v) := by
  rw [Style.write] at ht htext
  cases hv : style v with
  | some l =>
      rw [hv] at ht
      exact .inl (by rw [ht]; exact (hstyle v l hv).2)
  | none =>
      rw [hv] at ht htext
      refine .inr ⟨ht, ?_⟩
      rw [htext]
      exact hbinds 0 v (by simp [Style.bound, hv])

theorem spellsAt_constant {style : Style} (hstyle : style.Faithful) {k : Nat} {v : Json}
    (hbinds : Binds ctx.parameters k (style.bound v)) (p : Option Position) :
    SpellsAt ctx 4 [style.write k v] (.constant (some v) p) := by
  intro more tokens htokens
  obtain ⟨t, rest, rfl, ht, htext, hrest⟩ := exists_token htokens
  rcases constant_cases hstyle hbinds ht htext with hliteral | ⟨ht, hvalue⟩
  · refine ⟨.literal t, rest, .literal (by rw [hliteral]; rfl), hrest,
      RawExpr.admitted_literal t, ?_⟩
    rw [RawExpr.expr, hliteral]
    rfl
  · refine ⟨.parameter t, rest, .parameter ht, hrest,
      RawExpr.admitted_parameter_iff.mpr (by rw [hvalue]; rfl), ?_⟩
    rw [RawExpr.expr, hvalue]
    rfl

/-! ## Calls -/

/-- The raw expressions are admitted and mean the expressions, but for
the places in them. -/
structure RawExpr.MeansAll (ctx : ParseContext) (es : List Expr) (raws : List RawExpr) : Prop where
  admitted : ∀ raw ∈ raws, raw.Admitted ctx
  unplaced : Expr.unplacedAll (exprAll ctx.parameters ctx.aliases raws) = Expr.unplacedAll es

theorem RawExpr.meansAll_nil : MeansAll ctx [] [] :=
  ⟨by simp, rfl⟩

theorem RawExpr.Means.cons {e : Expr} {es : List Expr} {raw : RawExpr} {raws : List RawExpr}
    (h : Means ctx e raw) (hs : MeansAll ctx es raws) : MeansAll ctx (e :: es) (raw :: raws) := by
  refine ⟨by simpa using ⟨h.admitted, hs.admitted⟩, ?_⟩
  rw [exprAll, Expr.unplacedAll, Expr.unplacedAll, h.unplaced, hs.unplaced]

theorem RawExpr.MeansAll.length_eq {es : List Expr} {raws : List RawExpr}
    (h : MeansAll ctx es raws) : raws.length = es.length := by
  have hmap := h.unplaced
  rw [Expr.unplacedAll_eq_map, Expr.unplacedAll_eq_map, exprAll_eq_map] at hmap
  simpa using congrArg List.length hmap

/-- The lexemes are the arguments of a call. -/
def SpellsArgs (ctx : ParseContext) (ls : List Lexeme) (es : List Expr) : Prop :=
  Spells (Listed (Derives .or)) ls (RawExpr.MeansAll ctx es)

theorem spellsArgs_one {ls : List Lexeme} {e : Expr} (h : SpellsAt ctx 0 ls e) :
    SpellsArgs ctx ls [e] := by
  refine Spells.mono (Spells.one h) ?_
  rintro _ ⟨raw, rfl, hmeans⟩
  exact hmeans.cons RawExpr.meansAll_nil

theorem spellsArgs_cons {ls ms : List Lexeme} {e : Expr} {es : List Expr}
    (h : SpellsAt ctx 0 ls e) (hs : SpellsArgs ctx ms es) :
    SpellsArgs ctx (ls ++ ofSign .comma :: ms) (e :: es) := by
  refine Spells.mono (Spells.more h hs) ?_
  rintro _ ⟨raw, raws, rfl, hmeans, hall⟩
  exact hmeans.cons hall

theorem spellsAt_call {name : String} (hname : IsName name) (hupper : name.upperCase = name)
    {es : List Expr} {f : QueryFunction} (hf : ctx.registry.lookup name = some f)
    (harity : f.arity = es.length) {ls : List Lexeme} (hnil : es = [] → ls = [])
    (hargs : es ≠ [] → SpellsArgs ctx ls es) (p : Option Position) :
    SpellsAt ctx 4 (ofWord name :: parenthesize ls) (.call name es p) := by
  intro more tokens htokens
  rw [List.cons_append, parenthesize, List.cons_append, List.append_assoc] at htokens
  obtain ⟨t, ts, rfl, ht, htext, hts⟩ := exists_token htokens
  obtain ⟨opening, inner, rfl, hopening, -, hinner⟩ := exists_token hts
  have ht : t.kind = .identifier := ht.trans (kind_ofWord hname rfl)
  have htext : t.text.upperCase = name := by rw [htext.trans String.ofList_toList, hupper]
  have hmeans : ∀ {raws}, RawExpr.MeansAll ctx es raws →
      RawExpr.Means ctx (.call name es p) (.call t raws) := by
    refine fun hall => ⟨RawExpr.admitted_call_iff.mpr ⟨⟨f, ?_, ?_⟩, hall.admitted⟩, ?_⟩
    · exact htext ▸ hf
    · rw [harity, hall.length_eq]
    · rw [RawExpr.expr, Expr.unplaced, hall.unplaced, htext]
      rfl
  cases es with
  | nil =>
      rw [hnil rfl, List.nil_append] at hinner
      obtain ⟨closing, rest, rfl, hclosing, -, hmore⟩ := exists_token hinner
      exact ⟨_, rest, .emptyCall ht hopening hclosing, hmore, hmeans RawExpr.meansAll_nil⟩
  | cons e es =>
      obtain ⟨raws, rest, hlisted, hrest, hall⟩ := hargs (List.cons_ne_nil e es) _ inner hinner
      obtain ⟨closing, rest, rfl, hclosing, -, hmore⟩ := exists_token hrest
      exact ⟨_, rest, .call ht hopening _ (fun _ _ _ h => h) hlisted hclosing, hmore, hmeans hall⟩

/-! ## Expressions -/

mutual

/-- Every expression that can be written is spelled at its own level. -/
theorem spellsAt_write {style : Style} (hstyle : style.Faithful) (k : Nat) :
    ∀ e : Expr, e.Printable ctx.registry ctx.aliases →
      Binds ctx.parameters k (e.bound style) → SpellsAt ctx e.level (e.write style k) e
  | .constant (some v) p, _, hbinds => spellsAt_constant hstyle hbinds p
  | .constant none _, h, _ => absurd rfl h
  | .property path segments p, h, _ => spellsAt_property h p
  | .unary op e p, h, hbinds => by
      obtain ⟨rfl, he⟩ := h
      exact spellsAt_not ((spellsAt_write hstyle k e he hbinds).bracket 2) p
  | .binary op l r p, h, hbinds =>
      spellsAt_binary op ((spellsAt_write hstyle k l h.1 hbinds.left).bracket op.leftLevel)
        ((spellsAt_write hstyle _ r h.2 hbinds.right).bracket op.rightLevel) p
  | .call name args p, h, hbinds => by
      obtain ⟨hname, hupper, ⟨f, hf, harity⟩, hargs⟩ := h
      exact spellsAt_call hname hupper hf harity (fun hnil => by rw [hnil, Expr.writeArgs])
        (spellsArgs_write hstyle k args hargs hbinds) p

/-- The arguments of a call are spelled, if there are any. -/
theorem spellsArgs_write {style : Style} (hstyle : style.Faithful) (k : Nat) :
    ∀ es : List Expr, Expr.PrintableAll ctx.registry ctx.aliases es →
      Binds ctx.parameters k (Expr.boundAll style es) → es ≠ [] →
        SpellsArgs ctx (Expr.writeArgs style k es) es
  | [], _, _, hne => absurd rfl hne
  | [e], h, hbinds, _ =>
      spellsArgs_one ((spellsAt_write hstyle k e h.1 hbinds.left).lower (Nat.zero_le _))
  | e :: f :: es, h, hbinds, _ =>
      spellsArgs_cons ((spellsAt_write hstyle k e h.1 hbinds.left).lower (Nat.zero_le _))
        (spellsArgs_write hstyle _ (f :: es) h.2 hbinds.right (List.cons_ne_nil f es))

end

end DocStore
