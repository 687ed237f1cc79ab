import DocStore.Proofs.Run
import DocStore.Query.Parser

/-!
# Steps of the parser

What single steps of the parsing functions do: reading and skipping a
token of a kind, tokens at which no expression starts, the loops of AND
and OR (`IsChain`), and the loops over entries with commas between them
(`ReadsList`). All that is said about parsing is put together from
these.
-/

namespace DocStore

/-! ## Tokens -/

theorem skipKind_of_eq {kind : TokenKind} {t : Token} (h : t.kind = kind) (rest : List Token) :
    skipKind kind (t :: rest) = some rest := by
  rw [skipKind, if_pos h]

theorem skipKind_of_ne {kind : TokenKind} {t : Token} (h : t.kind ≠ kind) (rest : List Token) :
    skipKind kind (t :: rest) = none := by
  rw [skipKind, if_neg h]

theorem readKind_of_eq (stop : Position) {kind : TokenKind} (what : Expectation) {t : Token}
    (h : t.kind = kind) (rest : List Token) :
    readKind stop kind what (t :: rest) = .ok (t, rest) := by
  rw [readKind, if_pos h]

/-- A token continues an expression before it whose level is lower than
this. -/
def TokenKind.binding : TokenKind → Nat
  | .sign .dot | .sign .leftParen => 5
  | .comparison _ => 4
  | .keyword .and => 2
  | .keyword .or => 1
  | _ => 0

theorem comparison?_of_binding {t : Token} (h : t.kind.binding ≤ 3) :
    Expr.comparison? t = none := by
  cases hk : t.kind <;> simp_all [Expr.comparison?, TokenKind.binding]

/-! ## Rows -/

/-- The value behind TOP or LIMIT. -/
def readRowValue (ctx : ParseContext) (clause : RowClause) (t : Token) :
    Except ParseError Json :=
  match t.kind with
  | .integer n => .ok (.int n)
  | .parameter => ctx.parameter t
  | _ => expectedAt ctx.stop (.rowCount clause) [t]

/-- The number of rows that the value of a token is. -/
def countRows (clause : RowClause) (t : Token) (v : Json) : Except ParseError Nat :=
  match v with
  | .int (.ofNat n) => .ok n
  | v => refusedAt t (.badRowCount clause v)

theorem readRows_cons (ctx : ParseContext) (clause : RowClause) (t : Token)
    (rest : List Token) :
    readRows ctx clause (t :: rest) = (do
      let v ← readRowValue ctx clause t
      let n ← countRows clause t v
      return (n, rest)) := by
  have hcount : ∀ v, (countRows clause t v >>= fun n => pure (n, rest)) =
      match v with
      | .int (.ofNat n) => (pure (n, rest) : Except ParseError (Parsed Nat))
      | v => refusedAt t (.badRowCount clause v) := by
    intro v
    unfold countRows
    split <;> rfl
  rw [readRows, readRowValue]
  simp only [hcount]
  cases t.kind <;> rfl

/-! ## What starts no expression -/

/-- The tokens that an operand starts with. -/
def TokenKind.startsOperand (kind : TokenKind) : Bool :=
  kind.literal?.isSome || kind = .parameter || kind = .sign .leftParen || kind = .identifier

theorem readOperand_error (ctx : ParseContext) {t : Token}
    (h : t.kind.startsOperand = false) (F : Nat) (rest : List Token) :
    ∃ e, Expr.readOperand ctx F (t :: rest) = .error e := by
  cases F with
  | zero => exact ⟨_, rfl⟩
  | succ F =>
      rw [Expr.readOperand]
      cases hk : t.kind with
      | sign s =>
          cases s <;> first | exact ⟨_, rfl⟩ | (rw [hk] at h; cases h)
      | _ => first | exact ⟨_, rfl⟩ | (rw [hk] at h; cases h)

theorem readComparison_error (ctx : ParseContext) {t : Token}
    (h : t.kind.startsOperand = false) (F : Nat) (rest : List Token) :
    ∃ e, Expr.readComparison ctx F (t :: rest) = .error e := by
  cases F with
  | zero => exact ⟨_, rfl⟩
  | succ F =>
      obtain ⟨e, he⟩ := readOperand_error ctx h F rest
      exact ⟨e, by rw [Expr.readComparison, he]; rfl⟩

theorem readOr_error (ctx : ParseContext) {t : Token} (h : t.kind.startsOperand = false)
    (hnot : t.kind ≠ .keyword .not) (F : Nat) (rest : List Token) :
    ∃ e, Expr.readOr ctx F (t :: rest) = .error e := by
  match F with
  | 0 => exact ⟨_, rfl⟩
  | 1 => exact ⟨_, rfl⟩
  | 2 => exact ⟨_, rfl⟩
  | F + 3 =>
      obtain ⟨e, he⟩ := readComparison_error ctx h F rest
      refine ⟨e, ?_⟩
      rw [Expr.readOr, Expr.readAnd, Expr.readNot]
      simp only [if_neg hnot, he]
      rfl

/-- Arguments do not start with the closing parenthesis, which would
end the call. -/
theorem skipKind_of_readArgs {ctx : ParseContext} {F : Nat} {tokens : List Token}
    {r : Parsed (List Expr)} (h : Expr.readArgs ctx F tokens = .ok r) :
    skipKind (.sign .rightParen) tokens = none := by
  cases tokens with
  | nil => rfl
  | cons t rest =>
      refine skipKind_of_ne (fun hk => ?_) rest
      cases F with
      | zero => cases h
      | succ G =>
          obtain ⟨err, herr⟩ := readOr_error ctx (t := t) (by rw [hk]; rfl)
            (by rw [hk]; exact fun hk => by cases hk) G rest
          rw [Expr.readArgs, herr] at h
          cases h

/-! ## Chains -/

section Chain

variable {word : Keyword} {op : BinaryOp}
  {operand read : Nat → List Token → Except ParseError (Parsed Expr)}
  {loop : Nat → Expr → List Token → Except ParseError (Parsed Expr)}

/-- The function reads an operand and leaves the others, each behind the
word, to the loop, which gathers them to the left. -/
structure IsChain (word : Keyword) (op : BinaryOp)
    (operand read : Nat → List Token → Except ParseError (Parsed Expr))
    (loop : Nat → Expr → List Token → Except ParseError (Parsed Expr)) : Prop where
  start (F : Nat) (tokens : List Token) :
    read (F + 1) tokens = operand F tokens >>= fun r => loop F r.1 r.2
  go (F : Nat) (l : Expr) {t : Token} (rest : List Token) (ht : t.kind = .keyword word) :
    loop (F + 1) l (t :: rest) =
      operand F rest >>= fun r => loop F (.binary op l r.1 t.position) r.2
  stop (F : Nat) (l : Expr) {tokens : List Token}
    (h : ∀ t ∈ tokens.head?, t.kind ≠ .keyword word) : loop (F + 1) l tokens = .ok (l, tokens)

theorem isChain_and (ctx : ParseContext) :
    IsChain .and .and (Expr.readNot ctx) (Expr.readAnd ctx) (Expr.readAndRest ctx) where
  start F tokens := by rw [Expr.readAnd]
  go F l t rest ht := by
    rw [Expr.readAndRest]
    simp only [if_pos ht]
  stop F l tokens h := by
    cases tokens with
    | nil => rfl
    | cons t rest =>
        rw [Expr.readAndRest]
        simp only [if_neg (h t rfl)]

theorem isChain_or (ctx : ParseContext) :
    IsChain .or .or (Expr.readAnd ctx) (Expr.readOr ctx) (Expr.readOrRest ctx) where
  start F tokens := by rw [Expr.readOr]
  go F l t rest ht := by
    rw [Expr.readOrRest]
    simp only [if_pos ht]
  stop F l tokens h := by
    cases tokens with
    | nil => rfl
    | cons t rest =>
        rw [Expr.readOrRest]
        simp only [if_neg (h t rfl)]

end Chain

/-! ## Lists -/

/-- The parsing function reads one entry with `step` and goes on behind
a comma. -/
def ReadsList {α : Type} (step : List Token → Except ParseError (Parsed α))
    (loop : Nat → List Token → Except ParseError (Parsed (List α))) : Prop :=
  ∀ F tokens, loop (F + 1) tokens = do
    let (a, tokens) ← step tokens
    match skipKind (.sign .comma) tokens with
    | none => return ([a], tokens)
    | some rest =>
      let (as, tokens) ← loop F rest
      return (a :: as, tokens)

/-- Reads one selected path. -/
def readItem (stop : Position) (tokens : List Token) : Except ParseError (Parsed RawItem) := do
  let (path, tokens) ← RawPath.read stop .projection tokens
  let (alias?, tokens) ← readAs stop .outputName tokens
  return (⟨path, alias?⟩, tokens)

theorem readsList_readItems (stop : Position) : ReadsList (readItem stop) (readItems stop) := by
  intro F tokens
  rw [readItems, readItem]
  cases RawPath.read stop .projection tokens with
  | error e => rfl
  | ok r =>
      show (readAs stop .outputName r.2 >>= _) = (readAs stop .outputName r.2 >>= _) >>= _
      cases readAs stop .outputName r.2 with
      | error e => rfl
      | ok r => rfl

/-- Reads one sort key. -/
def readKey (stop : Position) (aliases : List String) (tokens : List Token) :
    Except ParseError (Parsed SortKey) := do
  let (path, tokens) ← RawPath.read stop .orderKey tokens
  let (direction, tokens) := readDirection tokens
  return (⟨path.text, path.below aliases, direction⟩, tokens)

theorem readsList_readKeys (stop : Position) (aliases : List String) :
    ReadsList (readKey stop aliases) (readKeys stop aliases) := by
  intro F tokens
  rw [readKeys, readKey]
  cases RawPath.read stop .orderKey tokens with
  | error e => rfl
  | ok r => rfl

end DocStore
