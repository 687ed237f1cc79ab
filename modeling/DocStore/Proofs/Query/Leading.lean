import DocStore.Proofs.Query.Rewriting

/-!
# Where paths start

Whether an identifier starts a path is seen from the token before it and
the one behind it. It does unless it stands behind a point, behind AS or
in the source, or names a function, which is told by a parenthesis
(`Spot`). The tokens that start paths by this rule (`leads`) are the
first names of the paths of the query, in the order of the text
(`DerivesQuery.leads_eq`).
-/

namespace DocStore

/-! ## Spots -/

/-- What an identifier is, by what stands before it. -/
inductive Spot where
  /-- The start of a path, or the name of a function. -/
  | path
  /-- A name behind a point, or the name of an output. -/
  | name
  | container
  | sourceAlias
deriving DecidableEq

namespace Spot

/-- The spot behind a token of the kind. -/
def next : Spot → TokenKind → Spot
  | name, _ => path
  | container, _ => sourceAlias
  | sourceAlias, .keyword .as_ => sourceAlias
  | _, .sign .dot => name
  | _, .keyword .as_ => name
  | _, .keyword .from_ => container
  | _, _ => path

/-- A token in the spot, with others behind it, starts a path. -/
def startsPath (spot : Spot) (t : Token) (rest : List Token) : Bool :=
  spot = path && t.kind = .identifier && !rest.head?.any (·.kind = .sign .leftParen)

end Spot

/-- The tokens that start paths. -/
def leads (spot : Spot) : List Token → List Token
  | [] => []
  | t :: rest =>
    let others := leads (spot.next t.kind) rest
    if spot.startsPath t rest then t :: others else others

/-! ## Paths -/

namespace RawExpr

mutual

/-- The paths of an expression. -/
def paths : RawExpr → List RawPath
  | literal _ | parameter _ => []
  | path p => [p]
  | call _ args => pathsAll args
  | not _ e => paths e
  | binary _ _ l r => paths l ++ paths r

def pathsAll : List RawExpr → List RawPath
  | [] => []
  | e :: es => paths e ++ pathsAll es

end

theorem pathsAll_eq_flatMap (es : List RawExpr) : pathsAll es = es.flatMap paths := by
  induction es with
  | nil => rfl
  | cons e es ih => rw [pathsAll, ih, List.flatMap_cons]

end RawExpr

/-- The paths of a query. -/
def RawQuery.paths (q : RawQuery) : List RawPath :=
  (q.projection.getD []).map (·.path) ++
    (q.where?.elim [] RawExpr.paths ++ q.orderBy.map (·.path))

/-! ## Spots along a phrase -/

namespace Spot

variable {t : Token} {rest : List Token}

theorem startsPath_of_ne (h : t.kind ≠ .identifier) (spot : Spot) (rest : List Token) :
    spot.startsPath t rest = false := by
  simp [startsPath, h]

theorem startsPath_of_stops (h : t.kind = .identifier) (hrest : Stops 4 rest) :
    path.startsPath t rest = true := by
  have hopening : ∀ u ∈ rest.head?, u.kind ≠ .sign .leftParen := hrest.ne (by decide)
  cases rest with
  | nil => simp [startsPath, h]
  | cons u rest => simpa [startsPath, h] using hopening u rfl

theorem startsPath_of_opening {opening : Token} (h : opening.kind = .sign .leftParen)
    (spot : Spot) (t : Token) (rest : List Token) :
    spot.startsPath t (opening :: rest) = false := by
  simp [startsPath, h]

/-- Tokens that neither start a path nor have a name behind them. -/
def passes (kind : TokenKind) : Bool :=
  kind ≠ .identifier && path.next kind = path

theorem passes_of_isJoint {kind : TokenKind} (h : kind.isJoint = true) : passes kind = true := by
  unfold TokenKind.isJoint at h
  split at h
  · rename_i s
    cases s <;> first | rfl | cases h
  · rfl
  · rename_i k
    cases k <;> first | rfl | cases h
  · cases h

theorem passes_of_literal? {kind : TokenKind} (h : kind.literal?.isSome = true) :
    passes kind = true := by
  unfold TokenKind.literal? at h
  split at h <;> first | rfl | cases h

theorem passes_of_isRowCount (h : t.IsRowCount) : passes t.kind = true := by
  rcases h with ⟨n, h⟩ | h <;> rw [h] <;> rfl

end Spot

section Leads

variable {t : Token} {tokens rest : List Token}

theorem leads_of_ne (h : t.kind ≠ .identifier) (spot : Spot) (rest : List Token) :
    leads spot (t :: rest) = leads (spot.next t.kind) rest := by
  rw [leads, Spot.startsPath_of_ne h]
  rfl

theorem leads_of_passes (h : Spot.passes t.kind = true) (rest : List Token) :
    leads .path (t :: rest) = leads .path rest := by
  simp only [Spot.passes, Bool.and_eq_true, decide_eq_true_eq] at h
  rw [leads_of_ne h.1, h.2]

theorem leads_of_isJoint {kind : TokenKind} (h : t.kind = kind) (hjoint : kind.isJoint = true)
    (rest : List Token) : leads .path (t :: rest) = leads .path rest :=
  leads_of_passes (Spot.passes_of_isJoint (h ▸ hjoint)) rest

theorem leads_of_dot (h : t.kind = .sign .dot) (rest : List Token) :
    leads .path (t :: rest) = leads .name rest := by
  rw [leads_of_ne (by simp [h]), h]
  rfl

theorem leads_of_as (h : t.kind = .keyword .as_) (rest : List Token) :
    leads .path (t :: rest) = leads .name rest := by
  rw [leads_of_ne (by simp [h]), h]
  rfl

/-- A token in a spot for names starts no path. -/
theorem leads_name (t : Token) (rest : List Token) :
    leads .name (t :: rest) = leads .path rest := rfl

theorem leads_of_identifier (h : t.kind = .identifier) (rest : List Token) :
    leads .path (t :: rest) =
      if Spot.path.startsPath t rest then t :: leads .path rest else leads .path rest := by
  rw [leads, h]
  rfl

/-! ## Phrases -/

theorem DerivesNames.leads_eq {names : List String} (h : DerivesNames tokens names rest) :
    leads .path tokens = leads .path rest := by
  induction h with
  | nil => rfl
  | cons hpoint hname h ih => rw [leads_of_dot hpoint, leads_name, ih]

/-- What stands behind the first name of a path opens no call. -/
theorem DerivesNames.startsPath {names : List String} (h : DerivesNames tokens names rest)
    (ht : t.kind = .identifier) (hrest : Stops 4 rest) :
    Spot.path.startsPath t tokens = true := by
  cases h with
  | nil => exact Spot.startsPath_of_stops ht hrest
  | cons hpoint hname h => simp [Spot.startsPath, ht, hpoint]

theorem DerivesPath.leads_eq {p : RawPath} (h : DerivesPath tokens p rest)
    (hrest : Stops 4 rest) : leads .path tokens = p.start :: leads .path rest := by
  obtain ⟨hstart, h⟩ := h
  rw [leads_of_identifier hstart, h.startsPath hstart hrest, if_pos rfl, h.leads_eq]

theorem DerivesAs.leads_eq {name : String} (h : DerivesAs tokens name rest) :
    leads .path tokens = leads .path rest := by
  obtain ⟨hword, -⟩ := h
  rw [leads_of_as hword, leads_name]

theorem Listed.leads_eq {α : Type} {phrase : List Token → α → List Token → Prop} {as : List α}
    (h : Listed phrase tokens as rest) (hrest : Stops 4 rest) {starts : α → List Token}
    (hphrase : ∀ tokens a rest, phrase tokens a rest → Stops 4 rest →
      leads .path tokens = starts a ++ leads .path rest) :
    leads .path tokens = as.flatMap starts ++ leads .path rest := by
  induction h with
  | one h => rw [List.flatMap_singleton, hphrase _ _ _ h hrest]
  | more h hcomma hs ih =>
      rw [hphrase _ _ _ h (stops_cons _ (by rw [hcomma]; decide)), leads_of_isJoint hcomma rfl,
        ih hrest, List.flatMap_cons, List.append_assoc]

/-- By induction on the derivation. -/
theorem Derives.leads_eq {n : Nonterminal} {e : RawExpr} (h : Derives n tokens e rest)
    (hrest : Stops 4 rest) :
    leads .path tokens = e.paths.map (·.start) ++ leads .path rest := by
  induction h with
  | and_or h ih | not_and h ih | comparison_not h ih | operand_comparison h ih => exact ih hrest
  | or hl hword hr ihl ihr | and hl hword hr ihl ihr =>
      rw [ihl (stops_cons _ (by rw [hword]; decide)), leads_of_isJoint hword rfl, ihr hrest,
        RawExpr.paths, List.map_append, List.append_assoc]
  | not hword h ih => rw [leads_of_isJoint hword rfl, ih hrest, RawExpr.paths]
  | comparison hl hsign hr ihl ihr =>
      rw [ihl (stops_cons _ (by rw [hsign]; exact Nat.le_refl 4)), leads_of_isJoint hsign rfl,
        ihr hrest, RawExpr.paths, List.map_append, List.append_assoc]
  | literal ht => exact leads_of_passes (Spot.passes_of_literal? ht) _
  | parameter ht => exact leads_of_passes (by rw [ht]; rfl) _
  | path h => exact h.leads_eq hrest
  | emptyCall hname hopening hclosing =>
      rw [leads_of_identifier hname, Spot.startsPath_of_opening hopening, if_neg (by decide),
        leads_of_isJoint hopening rfl, leads_of_isJoint hclosing rfl]
      rfl
  | call hname hopening argument hargument hargs hclosing ih =>
      rw [leads_of_identifier hname, Spot.startsPath_of_opening hopening, if_neg (by decide),
        leads_of_isJoint hopening rfl,
        hargs.leads_eq (stops_cons _ (by rw [hclosing]; decide)) ih,
        leads_of_isJoint hclosing rfl, RawExpr.paths, RawExpr.pathsAll_eq_flatMap,
        List.map_flatMap]
  | parentheses hopening h hclosing ih =>
      rw [leads_of_isJoint hopening rfl, ih (stops_cons _ (by rw [hclosing]; decide)),
        leads_of_isJoint hclosing rfl]

theorem DerivesItem.leads_eq {item : RawItem} (h : DerivesItem tokens item rest)
    (hrest : Stops 4 rest) : leads .path tokens = [item.path.start] ++ leads .path rest := by
  obtain ⟨hpath, halias⟩ := h
  cases halias with
  | absent => exact hpath.leads_eq hrest
  | present hname =>
      rw [hpath.leads_eq ((begins_as _ _ _ hname).stops (by decide)), hname.leads_eq]
      rfl

theorem DerivesProjection.leads_eq {projection : Option (List RawItem)}
    (h : DerivesProjection tokens projection rest) (hrest : Stops 4 rest) :
    leads .path tokens =
      (projection.getD []).map (·.path.start) ++ leads .path rest := by
  cases h with
  | star ht => exact leads_of_isJoint ht rfl _
  | items h =>
      rw [h.leads_eq hrest fun _ _ _ h => h.leads_eq, ← List.map_eq_flatMap]
      rfl

theorem DerivesDirection.leads_eq {direction : SortDirection}
    (h : DerivesDirection tokens direction rest) : leads .path tokens = leads .path rest := by
  cases h with
  | none => rfl
  | asc hword | desc hword => exact leads_of_isJoint hword rfl _

theorem DerivesKey.leads_eq {key : RawKey} (h : DerivesKey tokens key rest)
    (hrest : Stops 4 rest) : leads .path tokens = [key.path.start] ++ leads .path rest := by
  obtain ⟨hpath, hdirection⟩ := h
  rw [hpath.leads_eq (hdirection.stops hrest), hdirection.leads_eq]
  rfl

theorem DerivesOrderBy.leads_eq {keys : List RawKey} (h : DerivesOrderBy tokens keys rest)
    (hrest : Stops 4 rest) :
    leads .path tokens = keys.map (·.path.start) ++ leads .path rest := by
  cases h with
  | absent => rfl
  | present horder hby h =>
      rw [leads_of_isJoint horder rfl, leads_of_isJoint hby rfl,
        h.leads_eq hrest fun _ _ _ h => h.leads_eq, ← List.map_eq_flatMap]

theorem leads_of_where {where? : Option RawExpr} (h : Maybe DerivesWhere tokens where? rest)
    (hrest : Stops 4 rest) :
    leads .path tokens =
      (where?.elim [] RawExpr.paths).map (·.start) ++ leads .path rest := by
  cases h with
  | absent => rfl
  | present h =>
      obtain ⟨hword, h⟩ := h
      rw [leads_of_isJoint hword rfl, h.leads_eq hrest]
      rfl

theorem leads_of_rows {clause : Keyword} {t? : Option Token}
    (h : Maybe (DerivesRows clause) tokens t? rest)
    (hclause : (TokenKind.keyword clause).isJoint = true) :
    leads .path tokens = leads .path rest := by
  cases h with
  | absent => rfl
  | present h =>
      obtain ⟨hword, ht⟩ := h
      rw [leads_of_isJoint hword hclause, leads_of_passes (Spot.passes_of_isRowCount ht)]

/-- The source has no paths, and the clause behind it starts with a
word of its own. -/
theorem leads_of_source {from_ name : Token} {alias? : Option String}
    (hfrom : from_.kind = .keyword .from_) (h : Maybe DerivesAlias tokens alias? rest)
    (hrest : Begins [.keyword .where_, .keyword .order, .keyword .limit] rest) :
    leads .path (from_ :: name :: tokens) = leads .path rest := by
  have hstart : leads .path (from_ :: name :: tokens) = leads .sourceAlias tokens := by
    rw [leads_of_ne (by simp [hfrom]), hfrom]
    rfl
  rw [hstart]
  cases h with
  | absent =>
      cases tokens with
      | nil => rfl
      | cons t more =>
          have hkind := hrest t rfl
          simp only [List.mem_cons, List.not_mem_nil, or_false] at hkind
          rcases hkind with hkind | hkind | hkind <;>
            rw [leads_of_ne (by simp [hkind]), leads_of_ne (by simp [hkind]), hkind] <;> rfl
  | present h =>
      cases h with
      | named h =>
          obtain ⟨hword, hname⟩ := h
          rw [leads_of_ne (by simp [hword]), hword, leads, hname]
          rfl
      | bare hname =>
          rw [leads, hname]
          rfl

/-- **The tokens that start paths** are the first names of the paths of
the query. -/
theorem DerivesQuery.leads_eq {raw : RawQuery} (h : DerivesQuery tokens raw) :
    leads .path tokens = raw.paths.map (·.start) := by
  obtain ⟨hselect, htop, hprojection, hfrom, hname, halias, hwhere, hkeys, hlimit⟩ := h
  have hbegins₆ := hlimit.begins (begins_rows .limit) (begins_nil [])
  have hbegins₅ := hkeys.begins hbegins₆
  have hbegins₄ := hwhere.begins begins_where hbegins₅
  rw [leads_of_isJoint hselect rfl, leads_of_rows htop rfl,
    hprojection.leads_eq (stops_cons _ (by rw [hfrom]; decide)),
    leads_of_source hfrom halias hbegins₄, leads_of_where hwhere (hbegins₅.stops (by decide)),
    hkeys.leads_eq (hbegins₆.stops (by decide)), leads_of_rows hlimit rfl]
  simp [RawQuery.paths, leads, Function.comp_def]

end Leads

end DocStore
