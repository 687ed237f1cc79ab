import DocStore.Proofs.Query.Binding
import DocStore.Proofs.Query.Leading
import DocStore.Proofs.Query.Respelling
import DocStore.Proofs.Query.Spelling

/-!
# The alias of the source

The alias of the source is a bound name: any other does as well
(`parse_renameSource`). Another name is written wherever the alias
stands, which is behind the container and where it starts a path
(`renameSource`); properties, outputs and functions of that name keep it.

- The text is divided into the tokens that were written
  (`TokenList.Scans.respell`).
- The grammar derives the same query with other first names of its paths
  (`DerivesQuery.renameSource`).
- A path that starts with the alias means what is behind it, any other
  means the whole of it. So the new name must start no path
  (`RawPath.below_renamed`), and then all paths mean what they did.
-/

namespace DocStore

open Lexeme

/-! ## Other paths -/

namespace RawExpr

mutual

/-- The expression with other paths. -/
def onPaths (f : RawPath → RawPath) : RawExpr → RawExpr
  | literal t => literal t
  | parameter t => parameter t
  | path p => path (f p)
  | call name args => call name (onPathsAll f args)
  | not word e => not word (onPaths f e)
  | binary op sign l r => binary op sign (onPaths f l) (onPaths f r)

def onPathsAll (f : RawPath → RawPath) : List RawExpr → List RawExpr
  | [] => []
  | e :: es => onPaths f e :: onPathsAll f es

end

theorem onPathsAll_eq_map (f : RawPath → RawPath) (es : List RawExpr) :
    onPathsAll f es = es.map (onPaths f) := by
  induction es with
  | nil => rfl
  | cons e es ih => rw [onPathsAll, ih, List.map_cons]

theorem onLeaves_onPaths (f : RawPath → RawPath) : OnLeaves f (onPaths f) where
  expr_path p := rfl
  expr_call name args := by rw [onPaths, onPathsAll_eq_map]
  expr_not word e := rfl
  expr_binary op sign l r := rfl

theorem keepsRules_onPaths (f : RawPath → RawPath) (ctx : ParseContext) (aliases : List String) :
    KeepsRules ctx { ctx with aliases := aliases } f (onPaths f) where
  toOnLeaves := onLeaves_onPaths f
  registry := rfl
  literal t := admitted_literal t
  parameter _ h := ⟨h.bound, h.registered⟩

end RawExpr

/-- The query with other paths and another alias. -/
def RawQuery.onPaths (f : RawPath → RawPath) (alias? : Option String) (q : RawQuery) : RawQuery :=
  { q with
    projection := q.projection.map (·.map (·.onPath f))
    alias? := alias?
    where? := q.where?.map (·.onPaths f)
    orderBy := q.orderBy.map (·.onPath f) }

section Meaning

variable {f : RawPath → RawPath} {values : Parameters} {aliases aliases' : List String}

namespace RawExpr

mutual

/-- An expression whose paths mean what they did means what it did. -/
theorem unspelled_expr_onPaths : ∀ e : RawExpr,
    (∀ p ∈ e.paths, (f p).below aliases' = p.below aliases) →
      ((e.onPaths f).expr values aliases').unspelled = (e.expr values aliases).unspelled
  | literal t, _ | parameter t, _ => rfl
  | path p, h => by
      rw [onPaths, expr, expr, Expr.unspelled, Expr.unspelled, h p (by simp [paths])]
  | call name args, h => by
      rw [onPaths, expr, expr, Expr.unspelled, Expr.unspelled,
        unspelledAll_exprAll_onPathsAll args h]
  | not word e, h => by
      rw [onPaths, expr, expr, Expr.unspelled, Expr.unspelled, unspelled_expr_onPaths e h]
  | binary op sign l r, h => by
      rw [onPaths, expr, expr, Expr.unspelled, Expr.unspelled,
        unspelled_expr_onPaths l fun p hp => h p (List.mem_append_left _ hp),
        unspelled_expr_onPaths r fun p hp => h p (List.mem_append_right _ hp)]

theorem unspelledAll_exprAll_onPathsAll : ∀ es : List RawExpr,
    (∀ p ∈ pathsAll es, (f p).below aliases' = p.below aliases) →
      Expr.unspelledAll (exprAll values aliases' (onPathsAll f es)) =
        Expr.unspelledAll (exprAll values aliases es)
  | [], _ => rfl
  | e :: es, h => by
      rw [onPathsAll, exprAll, exprAll, Expr.unspelledAll, Expr.unspelledAll,
        unspelled_expr_onPaths e fun p hp => h p (List.mem_append_left _ hp),
        unspelledAll_exprAll_onPathsAll es fun p hp => h p (List.mem_append_right _ hp)]

end

end RawExpr

theorem RawItem.isWhole_onPath {item : RawItem}
    (h : (f item.path).below aliases' = item.path.below aliases) :
    (item.onPath f).isWhole aliases' = item.isWhole aliases := by
  rw [isWhole, isWhole, onPath, h]

theorem RawItem.unspelled_strip_onPath {item : RawItem}
    (h : (f item.path).below aliases' = item.path.below aliases) :
    ((item.onPath f).strip aliases').unspelled = (item.strip aliases).unspelled := by
  rw [strip, strip, SelectItem.unspelled, SelectItem.unspelled, onPath, h]

theorem RawKey.unspelled_strip_onPath {key : RawKey}
    (h : (f key.path).below aliases' = key.path.below aliases) :
    ((key.onPath f).strip aliases').unspelled = (key.strip aliases).unspelled := by
  rw [strip, strip, SortKey.unspelled, SortKey.unspelled, onPath, h]

section Projection

variable {projection : Option (List RawItem)}
  (h : ∀ item ∈ projection.getD [], (f item.path).below aliases' = item.path.below aliases)

include h

theorem unspelled_projectionOf :
    (projectionOf aliases' (projection.map (·.map (·.onPath f)))).unspelled =
      (projectionOf aliases projection).unspelled := by
  cases projection with
  | none => rfl
  | some items =>
      replace h : ∀ item ∈ items, (f item.path).below aliases' = item.path.below aliases := h
      have hany : (items.map (·.onPath f)).any (·.isWhole aliases') =
          items.any (·.isWhole aliases) := by
        rw [Bool.eq_iff_iff, List.any_map, List.any_eq_true, List.any_eq_true]
        exact exists_congr fun item => and_congr_right fun hitem => by
          rw [Function.comp_apply, RawItem.isWhole_onPath (h item hitem)]
      rw [Option.map_some, projectionOf, projectionOf, hany]
      split
      · rfl
      · simp only [Projection.unspelled, List.map_map]
        exact congrArg _ (List.map_congr_left fun item hitem =>
          RawItem.unspelled_strip_onPath (h item hitem))

theorem SelectsAlone.onPath (halone : SelectsAlone aliases projection) :
    SelectsAlone aliases' (projection.map (·.map (·.onPath f))) := by
  rintro _ hitems ⟨item', hitem', hwhole⟩
  obtain ⟨items, rfl, rfl⟩ := Option.map_eq_some_iff.mp hitems
  obtain ⟨item, hitem, rfl⟩ := List.mem_map.mp hitem'
  rw [RawItem.isWhole_onPath (h item hitem)] at hwhole
  rw [List.length_map]
  exact halone items rfl ⟨item, hitem, hwhole⟩

end Projection

namespace RawQuery

variable {raw : RawQuery} {alias? : Option String}
  (h : ∀ p ∈ raw.paths, (f p).below (raw.onPaths f alias?).aliases = p.below raw.aliases)

include h

theorem below_item : ∀ item ∈ raw.projection.getD [],
    (f item.path).below (raw.onPaths f alias?).aliases = item.path.below raw.aliases :=
  fun _ hitem => h _ (List.mem_append_left _ (List.mem_map_of_mem hitem))

/-- A query whose paths mean what they did means what it did. -/
theorem unspelled_query_onPaths (text text' : String) :
    ((raw.onPaths f alias?).query values text').unspelled =
      (raw.query values text).unspelled := by
  have hwhere : ((raw.onPaths f alias?).where?.map
      (·.expr values (raw.onPaths f alias?).aliases)).map (·.unspelled) =
        (raw.where?.map (·.expr values raw.aliases)).map (·.unspelled) := by
    cases hwhere : raw.where? with
    | none => simp [onPaths, hwhere]
    | some e =>
        have hpaths : ∀ p ∈ e.paths,
            (f p).below (raw.onPaths f alias?).aliases = p.below raw.aliases :=
          fun p hp => h p (by simp [paths, hwhere, hp])
        simpa [onPaths, hwhere] using RawExpr.unspelled_expr_onPaths e hpaths
  have horderBy : ((raw.onPaths f alias?).orderBy.map
      (·.strip (raw.onPaths f alias?).aliases)).map (·.unspelled) =
        (raw.orderBy.map (·.strip raw.aliases)).map (·.unspelled) := by
    rw [onPaths, List.map_map, List.map_map, List.map_map]
    refine List.map_congr_left fun key hkey => RawKey.unspelled_strip_onPath (h _ ?_)
    exact List.mem_append_right _ (List.mem_append_right _ (List.mem_map_of_mem hkey))
  have hprojection := unspelled_projectionOf (below_item h)
  simp only [query, Query.unspelled, Query.mk.injEq, true_and]
  exact ⟨hprojection, hwhere, horderBy, rfl⟩

/-- So it keeps the rules beyond the grammar. -/
theorem Admitted.onPaths {registry : Registry} (hadmitted : raw.Admitted registry values) :
    (raw.onPaths f alias?).Admitted registry values := by
  refine admitted_of_where? ⟨registry, values, (raw.onPaths f alias?).aliases, .start⟩ ?_
    hadmitted.counts hadmitted.exclusive (hadmitted.alone.onPath (below_item h))
  intro e he
  obtain ⟨e, hwhere, rfl⟩ := Option.map_eq_some_iff.mp he
  exact (RawExpr.keepsRules_onPaths f _ _).admitted e
    (hadmitted.where? raw.aliases .start e hwhere)

end RawQuery

end Meaning

/-! ## Another name -/

/-- The token with `y` for its text, if that is `x`. -/
def Token.renamed (x y : String) (t : Token) : Token :=
  if t.text = x then { t with text := y } else t

/-- The path with `y` for its first name, if that is `x`. -/
def RawPath.renamed (x y : String) (p : RawPath) : RawPath :=
  { p with start := p.start.renamed x y }

/-- A token in the spot, with others behind it, can be the alias: it
starts a path or stands behind the container. -/
def Spot.canBeAlias (spot : Spot) (t : Token) (rest : List Token) : Bool :=
  spot.startsPath t rest || (spot = .sourceAlias && t.kind = .identifier)

/-- The tokens with `y` in the places of the alias `x`. -/
def renameSource (x y : String) (spot : Spot) : List Token → List Token
  | [] => []
  | t :: rest =>
    (if spot.canBeAlias t rest then t.renamed x y else t) ::
      renameSource x y (spot.next t.kind) rest

section Renaming

variable {x y : String} {t : Token} {tokens rest : List Token}

theorem Token.kind_renamed : (t.renamed x y).kind = t.kind := by
  unfold renamed
  split <;> rfl

theorem RawPath.below_singleton (p : RawPath) (x : String) :
    p.below [x] = if p.start.text = x then p.rest else p.segments := by
  simp [below]

/-- The new name is taken for the alias where the alias stood, and
nowhere else. -/
theorem RawPath.below_renamed {p : RawPath} (hy : p.start.text ≠ y) :
    (p.renamed x y).below [y] = p.below [x] := by
  rw [below_singleton, below_singleton, renamed, Token.renamed]
  by_cases hx : p.start.text = x
  · simp [hx]
  · simp [hx, hy, segments]

theorem RawQuery.below_renamed {raw : RawQuery} (halias : raw.alias? = some x)
    (hfresh : ∀ p ∈ raw.paths, p.start.text ≠ y) :
    ∀ p ∈ raw.paths, (p.renamed x y).below (raw.onPaths (.renamed x y) (some y)).aliases =
      p.below raw.aliases := by
  intro p hp
  rw [aliases, aliases, halias]
  exact p.below_renamed (hfresh p hp)

theorem Spot.kind_of_canBeAlias {spot : Spot} (h : spot.canBeAlias t rest = true) :
    t.kind = .identifier := by
  simp only [canBeAlias, startsPath, Bool.or_eq_true, Bool.and_eq_true, decide_eq_true_eq] at h
  rcases h with h | h
  · exact h.1.2
  · exact h.2

/-- Names are replaced by names, all else is kept. -/
theorem renames_renameSource (x y : String) (spot : Spot) (tokens : List Token) :
    List.Forall₂ (Token.Renames x y) tokens (renameSource x y spot tokens) := by
  induction tokens generalizing spot with
  | nil => exact .nil
  | cons t rest ih =>
      refine .cons ?_ (ih _)
      split
      · rename_i hspot
        unfold Token.renamed
        split
        · rename_i hx
          exact .other (Spot.kind_of_canBeAlias hspot) hx
        · exact .same t
      · exact .same t

/-! ## Phrases -/

theorem renameSource_of_ne (h : t.kind ≠ .identifier) (spot : Spot) (rest : List Token) :
    renameSource x y spot (t :: rest) = t :: renameSource x y (spot.next t.kind) rest := by
  have hspot : spot.canBeAlias t rest = false :=
    Bool.eq_false_iff.mpr fun hspot => h (Spot.kind_of_canBeAlias hspot)
  rw [renameSource, hspot]
  rfl

theorem renameSource_of_passes (h : Spot.passes t.kind = true) (rest : List Token) :
    renameSource x y .path (t :: rest) = t :: renameSource x y .path rest := by
  simp only [Spot.passes, Bool.and_eq_true, decide_eq_true_eq] at h
  rw [renameSource_of_ne h.1, h.2]

theorem renameSource_of_dot (h : t.kind = .sign .dot) (rest : List Token) :
    renameSource x y .path (t :: rest) = t :: renameSource x y .name rest := by
  rw [renameSource_of_ne (by simp [h]), h]
  rfl

theorem renameSource_of_as (h : t.kind = .keyword .as_) (rest : List Token) :
    renameSource x y .path (t :: rest) = t :: renameSource x y .name rest := by
  rw [renameSource_of_ne (by simp [h]), h]
  rfl

theorem renameSource_name (x y : String) (t : Token) (rest : List Token) :
    renameSource x y .name (t :: rest) = t :: renameSource x y .path rest := rfl

theorem renameSource_of_identifier (h : t.kind = .identifier) (rest : List Token) :
    renameSource x y .path (t :: rest) =
      (if Spot.path.startsPath t rest then t.renamed x y else t) ::
        renameSource x y .path rest := by
  rw [renameSource, h, Spot.canBeAlias]
  simp [Spot.next]

theorem DerivesNames.renameSource {names : List String} (h : DerivesNames tokens names rest) :
    DerivesNames (renameSource x y .path tokens) names (renameSource x y .path rest) := by
  induction h with
  | nil => exact .nil
  | cons hpoint hname h ih =>
      rw [renameSource_of_dot hpoint, renameSource_name]
      exact .cons hpoint hname ih

/-- Another name for the source takes phrases to phrases with other
paths. -/
theorem rewriting_renameSource (x y : String) :
    Rewriting (renameSource x y .path) (RawPath.renamed x y)
      (RawExpr.onPaths (RawPath.renamed x y)) where
  toOnLeaves := RawExpr.onLeaves_onPaths _
  nil := rfl
  joint h hjoint rest := renameSource_of_passes (Spot.passes_of_isJoint (h ▸ hjoint)) rest
  output := by
    rintro _ _ _ ⟨hword, hname⟩
    rw [renameSource_of_as hword, renameSource_name]
    exact .mk hword hname
  leading := by
    rintro _ _ _ ⟨hstart, h⟩ hrest
    rw [renameSource_of_identifier hstart, h.startsPath hstart hrest, if_pos rfl]
    exact .mk (Token.kind_renamed.trans hstart) h.renameSource
  head hname hopening rest := by
    rw [renameSource_of_identifier hname, Spot.startsPath_of_opening hopening,
      if_neg Bool.false_ne_true, renameSource_of_passes (by rw [hopening]; rfl)]
  literal ht rest := by
    rw [renameSource_of_passes (Spot.passes_of_literal? ht)]
    exact .literal ht
  parameter ht rest := by
    rw [renameSource_of_passes (by rw [ht]; rfl)]
    exact .parameter ht

theorem renameSource_sourceAlias (h : t.kind = .identifier) (y : String) (rest : List Token) :
    renameSource t.text y .sourceAlias (t :: rest) =
      { t with text := y } :: renameSource t.text y .path rest := by
  simp [renameSource, Spot.canBeAlias, Spot.next, Token.renamed, h]

/-- The declared alias is replaced. -/
theorem DerivesAlias.renameSource (h : DerivesAlias tokens x rest) :
    DerivesAlias (renameSource x y .sourceAlias tokens) y (renameSource x y .path rest) := by
  cases h with
  | named h =>
      obtain ⟨hword, hname⟩ := h
      rw [renameSource_of_ne (by simp [hword]), hword, Spot.next, renameSource_sourceAlias hname]
      exact .named (.mk hword hname)
  | bare hname =>
      rw [renameSource_sourceAlias hname]
      exact .bare hname

theorem DerivesQuery.renameSource {raw : RawQuery} (h : DerivesQuery tokens raw)
    (halias : raw.alias? = some x) (y : String) :
    DerivesQuery (renameSource x y .path tokens) (raw.onPaths (.renamed x y) (some y)) := by
  have hrow : ∀ t ∈ raw.rows, t.IsRowCount → (id t).IsRowCount ∧
      ∀ rest, DocStore.renameSource x y .path (t :: rest) =
        id t :: DocStore.renameSource x y .path rest :=
    fun t _ ht => ⟨ht, renameSource_of_passes (Spot.passes_of_isRowCount ht)⟩
  have hsource : ∀ {from_ name : Token} {more rest : List Token},
      from_.kind = .keyword .from_ → name.kind = .identifier →
        Maybe DerivesAlias more raw.alias? rest →
          ∃ more', DocStore.renameSource x y .path (from_ :: name :: more) =
              from_ :: name :: more' ∧
            Maybe DerivesAlias more' (some y) (DocStore.renameSource x y .path rest) := by
    intro from_ name more rest hfrom hname hsource
    rw [halias] at hsource
    cases hsource with | present hsource =>
    refine ⟨_, ?_, .present hsource.renameSource⟩
    rw [renameSource_of_ne (by simp [hfrom]), hfrom]
    rfl
  simpa [RawQuery.onPaths] using h.rewrite (rewriting_renameSource x y) hrow hsource

end Renaming

/-! ## Queries -/

section Queries

variable {registry : Registry} {text x y : String} {given : Json} {q : Query}
  {tokens : List Token} {stop : Position}

/-- **The alias of the source does not matter.** In an accepted text
that declares an alias, let another name be written in its place, both
where it is declared and where it starts a path. The new text is
accepted, and gives the same query but for spelling and places, with the
same results on all documents. The new name must not start a path
itself, and must not be taken for an exponent of a number right in front
of it.

The alias alone is left out of paths: a path that starts with anything
else, such as `c` or `r`, is meant as it is written. -/
theorem parse_renameSource (htext : TokenList.ofText text = .ok ⟨tokens, stop⟩)
    (h : Query.parse registry text given = .ok q) (halias : q.alias? = some x) (hy : IsName y)
    (hfresh : ∀ t ∈ leads .path tokens, t.text ≠ y)
    (hmark : startsMark y → ¬ NumberBefore x tokens) :
    (∃ q', Query.parse registry
        (String.ofList (respell 0 tokens (renameSource x y .path tokens) text.toList)) given =
          .ok q' ∧
      q'.container = q.container ∧ q'.alias? = some y ∧ q'.unspelled = q.unspelled ∧
      ∀ (r : Registry) (strict : Bool) (documents : List Json),
        (q'.execute r strict documents).outcome.mapError ExecutionError.unplaced =
          (q.execute r strict documents).outcome.mapError ExecutionError.unplaced) ∧
      ∃ values raw, Parameters.normalize given = .ok values ∧ DerivesQuery tokens raw ∧
        q = raw.query values text ∧ leads .path tokens = raw.paths.map (·.start) ∧
        ∀ p ∈ raw.paths,
          p.below raw.aliases = if p.start.text = x then p.rest else p.segments := by
  obtain ⟨values, raw, hvalues, hraw, hadmitted, rfl⟩ := exists_derives_of_parse htext h
  replace halias : raw.alias? = some x := halias
  have hbelow := raw.below_renamed halias (y := y) fun p hp =>
    hfresh _ (hraw.leads_eq ▸ List.mem_map_of_mem hp)
  refine ⟨?_, values, raw, hvalues, hraw, rfl, hraw.leads_eq, fun p _ => ?_⟩
  · obtain ⟨us, htext', hmap⟩ :=
      TokenList.ofText_respell htext (renames_renameSource x y .path tokens) hy hmark
    obtain ⟨q', hparse, hunplaced⟩ := exists_parse_of_derives htext' hmap hvalues
      (hraw.renameSource halias y) (hadmitted.onPaths hbelow) text
    have hcontainer : q'.unplaced.container = _ := congrArg Query.container hunplaced
    have hsource : q'.unplaced.alias? = _ := congrArg Query.alias? hunplaced
    have hunspelled : q'.unspelled = (raw.query values text).unspelled := by
      rw [← q'.unspelled_unplaced, hunplaced, Query.unspelled_unplaced,
        RawQuery.unspelled_query_onPaths hbelow text]
    refine ⟨q', hparse, hcontainer, hsource, hunspelled, fun r strict documents => ?_⟩
    rw [← execute_unspelled, ← execute_unspelled, hunspelled]
  · rw [RawQuery.aliases, halias]
    exact p.below_singleton x

end Queries

/-- An output and a property have the name of the alias, another path
starts with `c`, and a number stands in front of the alias. -/
theorem parse_renameSource_homonyms :
    let text := "SELECT TOP 1x.a, c.b AS x FROM people AS x WHERE x.x = 1 ORDER BY x.a"
    let text' := "SELECT TOP 1doc.a, c.b AS x FROM people AS doc WHERE doc.x = 1 ORDER BY doc.a"
    ∃ tokens stop q q', TokenList.ofText text = .ok ⟨tokens, stop⟩ ∧
      Query.parse .standard text .null = .ok q ∧ q.alias? = some "x" ∧ IsName "doc" ∧
      (∀ t ∈ leads .path tokens, t.text ≠ "doc") ∧
      (startsMark "doc" → ¬ NumberBefore "x" tokens) ∧
      Query.parse .standard text' .null = .ok q' ∧ q'.unspelled = q.unspelled := by
  intro text text'
  obtain ⟨⟨tokens, stop⟩, htext, htokens⟩ : ∃ ts, TokenList.ofText text = .ok ts ∧
      decide ((leads .path ts.tokens).map (·.text) = ["x", "c", "x", "x"] ∧
        String.ofList (respell 0 ts.tokens (renameSource "x" "doc" .path ts.tokens)
          text.toList) = text') = true :=
    exists_ok_of_any (by decide +kernel)
  obtain ⟨hnames, hrenamed⟩ := of_decide_eq_true htokens
  obtain ⟨q, hq, halias⟩ : ∃ q, Query.parse .standard text .null = .ok q ∧
      decide (q.alias? = some "x") = true :=
    exists_ok_of_any (by decide +kernel)
  replace halias := of_decide_eq_true halias
  have hdoc : IsName "doc" := ⟨_, _, rfl, rfl⟩
  have hfresh : ∀ t ∈ leads .path tokens, t.text ≠ "doc" := by
    intro t ht htext
    have hname : "doc" ∈ ["x", "c", "x", "x"] :=
      hnames ▸ List.mem_map.mpr ⟨t, ht, htext⟩
    exact absurd hname (by decide)
  have hmark : startsMark "doc" → ¬ NumberBefore "x" tokens := by
    rintro (h | h) <;> exact absurd h (by decide)
  obtain ⟨⟨q', hparse, -, -, hunspelled, -⟩, -⟩ :=
    parse_renameSource htext hq halias hdoc hfresh hmark
  have htext' : String.ofList (respell 0 tokens (renameSource "x" "doc" .path tokens)
      text.toList) = text' := hrenamed
  rw [htext'] at hparse
  exact ⟨tokens, stop, q, q', htext, hq, halias, hdoc, hfresh, hmark, hparse, hunspelled⟩

/-- With a name that starts like an exponent, right behind a number, the
text is refused. -/
theorem parse_renameSource_exponent :
    let text := "SELECT TOP 1x.a FROM c x"
    ∃ tokens stop q, TokenList.ofText text = .ok ⟨tokens, stop⟩ ∧
      Query.parse .standard text .null = .ok q ∧ q.alias? = some "x" ∧ IsName "e" ∧
      (∀ t ∈ leads .path tokens, t.text ≠ "e") ∧
      String.ofList (respell 0 tokens (renameSource "x" "e" .path tokens) text.toList) =
        "SELECT TOP 1e.a FROM c e" ∧
      ∀ q', Query.parse .standard "SELECT TOP 1e.a FROM c e" .null ≠ .ok q' := by
  intro text
  obtain ⟨⟨tokens, stop⟩, htext, htokens⟩ : ∃ ts, TokenList.ofText text = .ok ts ∧
      decide ((leads .path ts.tokens).map (·.text) = ["x"] ∧
        String.ofList (respell 0 ts.tokens (renameSource "x" "e" .path ts.tokens) text.toList) =
          "SELECT TOP 1e.a FROM c e") = true :=
    exists_ok_of_any (by decide +kernel)
  obtain ⟨hnames, hrenamed⟩ := of_decide_eq_true htokens
  obtain ⟨q, hq, halias⟩ : ∃ q, Query.parse .standard text .null = .ok q ∧
      decide (q.alias? = some "x") = true :=
    exists_ok_of_any (by decide +kernel)
  refine ⟨tokens, stop, q, htext, hq, of_decide_eq_true halias, ⟨_, _, rfl, rfl⟩, ?_, hrenamed, ?_⟩
  · intro t ht htext
    have hname : "e" ∈ ["x"] := hnames ▸ List.mem_map.mpr ⟨t, ht, htext⟩
    exact absurd hname (by decide)
  · intro q' h
    have hrefused :
        (Query.parse .standard "SELECT TOP 1e.a FROM c e" .null).toOption.isNone = true := by
      decide +kernel
    rw [h] at hrefused
    cases hrefused

end DocStore
