import DocStore.Proofs.Query.Acceptance

/-!
# Phrases rewritten

A function that rewrites tokens takes phrases to phrases if it keeps the
tokens that hold phrases together and takes names, paths, literals,
parameters and the heads of calls to phrases of their kind
(`Rewriting`). Then it takes every phrase that is made of them to a
phrase of the same nonterminal, in which they are replaced: expressions
by induction on the derivation (`Derives.rewrite`), and clauses one
after the other.

A rewriting may look ahead. So a phrase must be followed by what does
not continue it (`Stops`), as all phrases of a query are.
-/

namespace DocStore

/-- Tokens that hold phrases together: comparison operators, and all
signs and words but those that have a name behind them. -/
def TokenKind.isJoint : TokenKind → Bool
  | sign s => s ≠ .dot
  | comparison _ => true
  | keyword k => k ≠ .from_ && k ≠ .as_
  | _ => false

/-! ## Leaves -/

/-- The function changes what stands at the leaves of expressions
alone. -/
structure RawExpr.OnLeaves (path : RawPath → RawPath) (expr : RawExpr → RawExpr) : Prop where
  expr_path : ∀ p, expr (.path p) = .path (path p)
  expr_call : ∀ name args, expr (.call name args) = .call name (args.map expr)
  expr_not : ∀ word e, expr (.not word e) = .not word (expr e)
  expr_binary : ∀ op sign l r, expr (.binary op sign l r) = .binary op sign (expr l) (expr r)

/-- What it puts there keeps the rules beyond the grammar. -/
structure RawExpr.KeepsRules (ctx ctx' : ParseContext) (path : RawPath → RawPath)
    (expr : RawExpr → RawExpr) : Prop extends RawExpr.OnLeaves path expr where
  registry : ctx'.registry = ctx.registry
  literal : ∀ t, (expr (.literal t)).Admitted ctx'
  parameter : ∀ t, (RawExpr.parameter t).Admitted ctx → (expr (.parameter t)).Admitted ctx'

namespace RawExpr.KeepsRules

variable {ctx ctx' : ParseContext} {path : RawPath → RawPath} {expr : RawExpr → RawExpr}

mutual

/-- So do whole expressions, as their calls are as before. -/
theorem admitted (hexpr : KeepsRules ctx ctx' path expr) : ∀ e : RawExpr, e.Admitted ctx →
    (expr e).Admitted ctx'
  | .literal t, _ => hexpr.literal t
  | .parameter t, h => hexpr.parameter t h
  | .path p, _ => by
      rw [hexpr.expr_path]
      exact admitted_path _
  | .call name args, h => by
      obtain ⟨htakes, hargs⟩ := admitted_call_iff.mp h
      rw [hexpr.expr_call]
      refine admitted_call_iff.mpr ⟨?_, admittedAll hexpr args hargs⟩
      rwa [List.length_map, hexpr.registry]
  | .not word e, h => by
      rw [hexpr.expr_not]
      exact admitted_not_iff.mpr (admitted hexpr e (admitted_not_iff.mp h))
  | .binary op sign l r, h => by
      obtain ⟨hl, hr⟩ := admitted_binary_iff.mp h
      rw [hexpr.expr_binary]
      exact admitted_binary_iff.mpr ⟨admitted hexpr l hl, admitted hexpr r hr⟩

theorem admittedAll (hexpr : KeepsRules ctx ctx' path expr) : ∀ es : List RawExpr,
    (∀ e ∈ es, e.Admitted ctx) → ∀ e ∈ es.map expr, e.Admitted ctx'
  | [], _ => by simp
  | e :: es, h => by
      obtain ⟨he, hes⟩ := List.forall_mem_cons.mp h
      rw [List.map_cons]
      exact List.forall_mem_cons.mpr ⟨admitted hexpr e he, admittedAll hexpr es hes⟩

end

end RawExpr.KeepsRules

/-- The function on tokens takes what phrases are made of to the
like. -/
structure Rewriting (f : List Token → List Token) (path : RawPath → RawPath)
    (expr : RawExpr → RawExpr) : Prop extends RawExpr.OnLeaves path expr where
  nil : f [] = []
  joint : ∀ {t : Token} {kind : TokenKind}, t.kind = kind → kind.isJoint = true →
    ∀ rest, f (t :: rest) = t :: f rest
  output : ∀ {tokens name rest}, DerivesAs tokens name rest → DerivesAs (f tokens) name (f rest)
  leading : ∀ {tokens p rest}, DerivesPath tokens p rest → Stops 4 rest →
    DerivesPath (f tokens) (path p) (f rest)
  head : ∀ {name opening : Token}, name.kind = .identifier → opening.kind = .sign .leftParen →
    ∀ rest, f (name :: opening :: rest) = name :: opening :: f rest
  literal : ∀ {t : Token}, t.kind.literal?.isSome = true → ∀ rest,
    Derives .operand (f (t :: rest)) (expr (.literal t)) (f rest)
  parameter : ∀ {t : Token}, t.kind = .parameter → ∀ rest,
    Derives .operand (f (t :: rest)) (expr (.parameter t)) (f rest)

/-- The item with another path. -/
def RawItem.onPath (path : RawPath → RawPath) (item : RawItem) : RawItem :=
  { item with path := path item.path }

def RawKey.onPath (path : RawPath → RawPath) (key : RawKey) : RawKey :=
  { key with path := path key.path }

section Rewriting

variable {f : List Token → List Token} {path : RawPath → RawPath} {expr : RawExpr → RawExpr}
  {tokens rest : List Token}

/-! ## Combinations -/

section Combinations

variable {α β : Type} {g : α → β} {phrase : List Token → α → List Token → Prop}
  {phrase' : List Token → β → List Token → Prop}

theorem Maybe.rewrite {a? : Option α} (h : Maybe phrase tokens a? rest)
    (hphrase : ∀ a, phrase tokens a rest → phrase' (f tokens) (g a) (f rest)) :
    Maybe phrase' (f tokens) (a?.map g) (f rest) := by
  cases h with
  | absent => exact .absent
  | present h => exact .present (hphrase _ h)

theorem Listed.rewrite (hf : Rewriting f path expr) {as : List α}
    (h : Listed phrase tokens as rest) (hrest : Stops 4 rest)
    (hphrase : ∀ tokens a rest, phrase tokens a rest → Stops 4 rest →
      phrase' (f tokens) (g a) (f rest)) : Listed phrase' (f tokens) (as.map g) (f rest) := by
  induction h with
  | one h => exact .one (hphrase _ _ _ h hrest)
  | more h hcomma hs ih =>
      have hmore := hphrase _ _ _ h (stops_cons _ (by rw [hcomma]; decide))
      rw [hf.joint hcomma rfl] at hmore
      exact .more hmore hcomma (ih hrest)

end Combinations

/-! ## Expressions -/

/-- By induction on the derivation: what stands behind an operand is a
joint or what stands behind the whole phrase. -/
theorem Derives.rewrite (hf : Rewriting f path expr) {n : Nonterminal} {e : RawExpr}
    (h : Derives n tokens e rest) (hrest : Stops 4 rest) :
    Derives n (f tokens) (expr e) (f rest) := by
  induction h with
  | and_or h ih => exact .and_or (ih hrest)
  | or hl hword hr ihl ihr =>
      have hl := ihl (stops_cons _ (by rw [hword]; decide))
      rw [hf.joint hword rfl] at hl
      rw [hf.expr_binary]
      exact .or hl hword (ihr hrest)
  | not_and h ih => exact .not_and (ih hrest)
  | and hl hword hr ihl ihr =>
      have hl := ihl (stops_cons _ (by rw [hword]; decide))
      rw [hf.joint hword rfl] at hl
      rw [hf.expr_binary]
      exact .and hl hword (ihr hrest)
  | comparison_not h ih => exact .comparison_not (ih hrest)
  | not hword h ih =>
      rw [hf.joint hword rfl, hf.expr_not]
      exact .not hword (ih hrest)
  | operand_comparison h ih => exact .operand_comparison (ih hrest)
  | comparison hl hsign hr ihl ihr =>
      have hl := ihl (stops_cons _ (by rw [hsign]; exact Nat.le_refl 4))
      rw [hf.joint hsign rfl] at hl
      rw [hf.expr_binary]
      exact .comparison hl hsign (ihr hrest)
  | literal ht => exact hf.literal ht _
  | parameter ht => exact hf.parameter ht _
  | path h =>
      rw [hf.expr_path]
      exact .path (hf.leading h hrest)
  | emptyCall hname hopening hclosing =>
      rw [hf.head hname hopening, hf.joint hclosing rfl, hf.expr_call]
      exact .emptyCall hname hopening hclosing
  | call hname hopening argument hargument hargs hclosing ih =>
      have hargs : Listed (Derives .or) _ _ _ :=
        hargs.rewrite hf (stops_cons _ (by rw [hclosing]; decide)) ih
      rw [hf.joint hclosing rfl] at hargs
      rw [hf.head hname hopening, hf.expr_call]
      exact .call hname hopening (Derives .or) (fun _ _ _ h => h) hargs hclosing
  | parentheses hopening h hclosing ih =>
      have h := ih (stops_cons _ (by rw [hclosing]; decide))
      rw [hf.joint hclosing rfl] at h
      rw [hf.joint hopening rfl]
      exact .parentheses hopening h hclosing

/-! ## Clauses -/

theorem DerivesItem.rewrite (hf : Rewriting f path expr) {item : RawItem}
    (h : DerivesItem tokens item rest) (hrest : Stops 4 rest) :
    DerivesItem (f tokens) (item.onPath path) (f rest) := by
  obtain ⟨hpath, halias⟩ := h
  cases halias with
  | absent => exact .mk (hf.leading hpath hrest) .absent
  | present hname =>
      have hmore : Stops 4 _ := (begins_as _ _ _ hname).stops (by decide)
      exact .mk (hf.leading hpath hmore) (.present (hf.output hname))

theorem DerivesProjection.rewrite (hf : Rewriting f path expr)
    {projection : Option (List RawItem)} (h : DerivesProjection tokens projection rest)
    (hrest : Stops 4 rest) :
    DerivesProjection (f tokens) (projection.map (·.map (·.onPath path))) (f rest) := by
  cases h with
  | star ht =>
      rw [hf.joint ht rfl]
      exact .star ht
  | items h => exact .items (h.rewrite hf hrest fun _ _ _ h => h.rewrite hf)

theorem DerivesWhere.rewrite (hf : Rewriting f path expr) {e : RawExpr}
    (h : DerivesWhere tokens e rest) (hrest : Stops 4 rest) :
    DerivesWhere (f tokens) (expr e) (f rest) := by
  obtain ⟨hword, h⟩ := h
  rw [hf.joint hword rfl]
  exact .mk hword (h.rewrite hf hrest)

theorem DerivesDirection.stops {n : Nat} {direction : SortDirection}
    (h : DerivesDirection tokens direction rest) (hrest : Stops n rest) : Stops n tokens := by
  cases h with
  | none => exact hrest
  | asc hword | desc hword => exact stops_cons _ (by rw [hword]; exact Nat.zero_le n)

theorem DerivesDirection.rewrite (hf : Rewriting f path expr) {direction : SortDirection}
    (h : DerivesDirection tokens direction rest) :
    DerivesDirection (f tokens) direction (f rest) := by
  cases h with
  | none => exact .none
  | asc hword =>
      rw [hf.joint hword rfl]
      exact .asc hword
  | desc hword =>
      rw [hf.joint hword rfl]
      exact .desc hword

theorem DerivesKey.rewrite (hf : Rewriting f path expr) {key : RawKey}
    (h : DerivesKey tokens key rest) (hrest : Stops 4 rest) :
    DerivesKey (f tokens) (key.onPath path) (f rest) := by
  obtain ⟨hpath, hdirection⟩ := h
  exact .mk (hf.leading hpath (hdirection.stops hrest)) (hdirection.rewrite hf)

theorem DerivesOrderBy.rewrite (hf : Rewriting f path expr) {keys : List RawKey}
    (h : DerivesOrderBy tokens keys rest) (hrest : Stops 4 rest) :
    DerivesOrderBy (f tokens) (keys.map (·.onPath path)) (f rest) := by
  cases h with
  | absent => exact .absent
  | present horder hby h =>
      rw [hf.joint horder rfl, hf.joint hby rfl]
      exact .present horder hby (h.rewrite hf hrest fun _ _ _ h => h.rewrite hf)

/-! ## Queries -/

/-- A token that counts rows. -/
def Token.IsRowCount (t : Token) : Prop :=
  (∃ n, t.kind = .integer n) ∨ t.kind = .parameter

theorem Maybe.rewrite_rows (hf : Rewriting f path expr) {clause : Keyword} {t? : Option Token}
    (h : Maybe (DerivesRows clause) tokens t? rest)
    (hclause : (TokenKind.keyword clause).isJoint = true) {row : Token → Token}
    (hrow : ∀ t ∈ t?, t.IsRowCount → (row t).IsRowCount ∧
      ∀ rest, f (t :: rest) = row t :: f rest) :
    Maybe (DerivesRows clause) (f tokens) (t?.map row) (f rest) := by
  cases h with
  | absent => exact .absent
  | present h =>
      obtain ⟨hword, ht⟩ := h
      obtain ⟨hcount, hrewrite⟩ := hrow _ rfl ht
      rw [hf.joint hword hclause, hrewrite]
      exact .present (.mk hword hcount)

/-- A query is taken to a query, given what becomes of the numbers of
rows and of the alias. -/
theorem DerivesQuery.rewrite (hf : Rewriting f path expr) {raw : RawQuery}
    (h : DerivesQuery tokens raw) {row : Token → Token} {alias? : Option String}
    (hrow : ∀ t ∈ raw.rows, t.IsRowCount → (row t).IsRowCount ∧
      ∀ rest, f (t :: rest) = row t :: f rest)
    (halias : ∀ {from_ name : Token} {more rest : List Token}, from_.kind = .keyword .from_ →
      name.kind = .identifier → Maybe DerivesAlias more raw.alias? rest →
        ∃ more', f (from_ :: name :: more) = from_ :: name :: more' ∧
          Maybe DerivesAlias more' alias? (f rest)) :
    DerivesQuery (f tokens)
      { top := raw.top.map row
        projection := raw.projection.map (·.map (·.onPath path))
        container := raw.container
        alias? := alias?
        where? := raw.where?.map expr
        orderBy := raw.orderBy.map (·.onPath path)
        limit := raw.limit.map row } := by
  obtain ⟨hselect, htop, hprojection, hfrom, hname, hsource, hwhere, hkeys, hlimit⟩ := h
  have hbegins₆ := hlimit.begins (begins_rows .limit) (begins_nil [])
  have hbegins₅ := hkeys.begins hbegins₆
  have htop := htop.rewrite_rows hf rfl fun t ht =>
    hrow t (List.mem_append_left _ (by simpa using ht))
  have hlimit := hlimit.rewrite_rows hf rfl fun t ht =>
    hrow t (List.mem_append_right _ (by simpa using ht))
  have hprojection := hprojection.rewrite hf (stops_cons _ (by rw [hfrom]; decide))
  have hwhere : Maybe DerivesWhere _ _ _ :=
    hwhere.rewrite fun _ h => h.rewrite hf (hbegins₅.stops (by decide))
  have hkeys := hkeys.rewrite hf (hbegins₆.stops (by decide))
  obtain ⟨more, hmore, hsource⟩ := halias hfrom hname hsource
  rw [hmore] at hprojection
  rw [hf.nil] at hlimit
  rw [hf.joint hselect rfl]
  exact .mk hselect htop hprojection hfrom hname hsource hwhere hkeys hlimit

end Rewriting

end DocStore
