import DocStore.Proofs.Query.Acceptance
import DocStore.Proofs.Query.Evaluation

/-!
# Chains of AND and OR

However a chain of operands of AND, or of OR, is grouped, the same
operands are evaluated in the same order, up to the first that decides,
and the truth values come to the same (`Connective.join_assoc`). So the
grouping makes no difference to the result, to the notices on the way and
to the error (`SameCourse.assoc`), nor to the node that raises the error
(`Expr.failing?`): that is never the AND or OR itself.

A grouping of a chain is a tree with the operands as its leaves
(`Groups`). Every one can be turned into the tree that leans to the right
(`Groups.exists_rightChain`), hence into the tree that leans to the left,
which is the one that is read from a chain without parentheses
(`read_of_flat`).
-/

namespace DocStore

/-! ## Connectives -/

namespace Connective

def word : Connective → Keyword
  | and => .and
  | or => .or

theorem join_assoc (k : Connective) (s t u : Truth) :
    k.join (k.join s t) u = k.join s (k.join t u) := by
  cases k <;> rcases s with _ | _ | _ <;> rcases t with _ | _ | _ <;> rcases u with _ | _ | _
    <;> rfl

theorem truth_join_eq_decisive_iff (k : Connective) {u : Value} (hu : u.truth ≠ some k.decisive)
    (v : Value) :
    (k.join u.truth v.truth).toValue.truth = some k.decisive ↔ v.truth = some k.decisive := by
  rw [truth_toValue, k.join_eq_decisive_iff]
  exact or_iff_right hu

/-- Whether the third operand goes with the second or is evaluated last
makes no difference. -/
theorem goOn_bind_goOn (k : Connective) (u : Value) (x y : Noticed EvalError Value) :
    (k.goOn u x >>= fun v => k.goOn v y) = k.goOn u (x >>= fun v => k.goOn v y) := by
  by_cases hu : u.truth = some k.decisive
  · rw [k.goOn_of_decisive hu, k.goOn_of_decisive hu, pure_bind, k.goOn_of_decisive rfl]
  · rw [k.goOn_of_not_decisive hu, k.goOn_of_not_decisive hu, bind_assoc, bind_assoc]
    refine bind_congr fun v => ?_
    rw [pure_bind]
    have hjoin := k.truth_join_eq_decisive_iff hu v
    by_cases hv : v.truth = some k.decisive
    · have hdecided : k.join u.truth (some k.decisive) = some k.decisive :=
        (k.join_eq_decisive_iff _ _).mpr (.inr rfl)
      rw [k.goOn_of_decisive (hjoin.mpr hv), k.goOn_of_decisive hv, pure_bind]
      exact congrArg (fun t => pure (Truth.toValue t)) hdecided.symm
    · rw [k.goOn_of_not_decisive (mt hjoin.mp hv), k.goOn_of_not_decisive hv, bind_assoc]
      refine bind_congr fun w => ?_
      rw [pure_bind, truth_toValue, truth_toValue, k.join_assoc]

/-- The outcome of an operand decides. -/
def decidedBy (k : Connective) (x : Except EvalError Value) : Bool :=
  x.toOption.any fun v => v.truth == some k.decisive

theorem decidedBy_ok (k : Connective) (v : Value) :
    k.decidedBy (.ok v) = (v.truth == some k.decisive) := rfl

/-- If the left operand does not decide, it is up to the right one. -/
theorem decidedBy_join (k : Connective) {u : Value} (hu : u.truth ≠ some k.decisive) (v : Value) :
    k.decidedBy (.ok (k.join u.truth v.truth).toValue) = k.decidedBy (.ok v) := by
  rw [decidedBy_ok, decidedBy_ok, Bool.eq_iff_iff, beq_iff_eq, beq_iff_eq]
  exact k.truth_join_eq_decisive_iff hu v

end Connective

namespace Expr

variable {r : Registry} {document : Json}

/-! ## The node that fails -/

/-- The node itself, if it has no value. -/
def blame (r : Registry) (document : Json) (e : Expr) : Option Expr :=
  match (e.eval r document).outcome with
  | .ok _ => none
  | .error _ => some e

mutual

/-- The node that raises the error in which the evaluation of an
expression ends: the first whose own step fails. -/
def failing? (r : Registry) (document : Json) : Expr → Option Expr
  | constant _ _ | property _ _ _ => none
  | unary .not e at? => (failing? r document e).or (blame r document (.unary .not e at?))
  | unary (.misplaced op) e at? => blame r document (.unary (.misplaced op) e at?)
  | binary .and left right _ =>
    (failing? r document left).or
      (if Connective.and.decidedBy (left.eval r document).outcome then none
        else failing? r document right)
  | binary .or left right _ =>
    (failing? r document left).or
      (if Connective.or.decidedBy (left.eval r document).outcome then none
        else failing? r document right)
  | binary (.compare c) left right at? =>
    (failing? r document left).or
      ((failing? r document right).or (blame r document (.binary (.compare c) left right at?)))
  | call name args at? =>
    match r.lookup name with
    | none => blame r document (.call name args at?)
    | some f =>
      if f.arity = args.length then
        (failingArg? r document args).or (blame r document (.call name args at?))
      else
        blame r document (.call name args at?)

def failingArg? (r : Registry) (document : Json) : List Expr → Option Expr
  | [] => none
  | e :: es => (failing? r document e).or (failingArg? r document es)

end

theorem failing?_connective (k : Connective) (left right : Expr) (at? : Option Position) :
    (binary k.op left right at?).failing? r document =
      (left.failing? r document).or
        (if k.decidedBy (left.eval r document).outcome then none
          else right.failing? r document) := by
  cases k <;> rw [Connective.op, failing?]

/-- The node is the one to blame for the outcome: there is none for a
result; for an error there is one that ends in this error, with operands
that have values. -/
def Explains (r : Registry) (document : Json) {α : Type} (node? : Option Expr)
    (outcome : Except EvalError α) : Prop :=
  EndsIn outcome (fun _ => node? = none) fun err =>
    ∃ n, node? = some n ∧ n.failing? r document = some n ∧
      (n.eval r document).outcome = .error err

section Explains

variable {α β : Type} {node? next? : Option Expr} {x : Except EvalError α}

theorem Explains.bind {f : α → Except EvalError β} (h : Explains r document node? x)
    (hf : ∀ a, x = .ok a → node? = none → Explains r document next? (f a)) :
    Explains r document (node?.or next?) (x >>= f) := by
  cases x with
  | ok a =>
      obtain rfl : node? = none := h
      exact hf a rfl rfl
  | error err =>
      obtain ⟨n, rfl, hn⟩ := h
      exact ⟨n, rfl, hn⟩

theorem explains_ok (a : α) : Explains r document none (.ok a : Except EvalError α) := rfl

/-- The own step of a node whose operands have values. -/
theorem explains_blame {e : Expr} (hself : e.failing? r document = blame r document e) :
    Explains r document (blame r document e) (e.eval r document).outcome := by
  unfold Explains
  cases h : (e.eval r document).outcome with
  | ok v => simp only [EndsIn, blame, h]
  | error err =>
      have hblame : blame r document e = some e := by simp only [blame, h]
      exact ⟨e, hblame, hself.trans hblame, h⟩

/-- AND and OR have no step of their own that could fail. -/
theorem explains_connective (k : Connective) {left right : Expr} (at? : Option Position)
    (hleft : Explains r document (left.failing? r document) (left.eval r document).outcome)
    (hright : Explains r document (right.failing? r document) (right.eval r document).outcome) :
    Explains r document ((binary k.op left right at?).failing? r document)
      ((binary k.op left right at?).eval r document).outcome := by
  rw [failing?_connective, eval_connective, Run.outcome_bind]
  refine hleft.bind fun v hv _ => ?_
  rw [hv, k.decidedBy_ok]
  by_cases hdecisive : v.truth = some k.decisive
  · rw [k.goOn_of_decisive hdecisive, if_pos (by simpa using hdecisive)]
    exact explains_ok _
  · rw [k.goOn_of_not_decisive hdecisive, if_neg (by simpa using hdecisive), Run.outcome_bind,
      ← Option.or_none (o := right.failing? r document)]
    exact hright.bind fun w _ _ => explains_ok _

end Explains

mutual

/-- By recursion on the expression, as it is evaluated. -/
theorem explains_failing? : (e : Expr) →
    Explains r document (e.failing? r document) (e.eval r document).outcome
  | .constant _ _ => by
      rw [failing?, eval]
      exact explains_ok _
  | .property _ _ _ => by
      rw [failing?, eval]
      exact explains_ok _
  | .unary .not e at? => by
      have heval := outcome_not r document e at?
      rw [failing?, heval]
      refine (explains_failing? e).bind fun v hv hnone => ?_
      rw [hv, ok_bind] at heval
      rw [← heval]
      exact explains_blame (by rw [failing?, hnone, Option.none_or])
  | .unary (.misplaced op) e at? => by
      rw [failing?]
      exact explains_blame (by rw [failing?])
  | .binary .and left right at? =>
      explains_connective .and at? (explains_failing? left) (explains_failing? right)
  | .binary .or left right at? =>
      explains_connective .or at? (explains_failing? left) (explains_failing? right)
  | .binary (.compare c) left right at? => by
      have heval := outcome_compare r document c left right at?
      rw [failing?, heval]
      refine (explains_failing? left).bind fun v hv hleft => ?_
      refine (explains_failing? right).bind fun w hw hright => ?_
      rw [hv, ok_bind, hw, ok_bind] at heval
      rw [← heval]
      exact explains_blame (by rw [failing?, hleft, hright, Option.none_or, Option.none_or])
  | .call name args at? => by
      rw [failing?]
      cases hf : r.lookup name with
      | none => exact explains_blame (by simp only [failing?, hf])
      | some f =>
          by_cases harity : f.arity = args.length
          · have heval : ((call name args at?).eval r document).outcome =
                (evalArgs r document args).outcome >>= fun vs => (f.run vs).mapError .call := by
              rw [eval]
              simp only [hf, if_pos harity, Run.outcome_bind]
              rfl
            simp only [if_pos harity, heval]
            refine (explains_failingArg? args).bind fun vs hvs hargs => ?_
            rw [hvs, ok_bind] at heval
            rw [← heval]
            refine explains_blame ?_
            rw [failing?]
            simp only [hf, if_pos harity, hargs, Option.none_or]
          · simp only [if_neg harity]
            exact explains_blame (by rw [failing?]; simp only [hf, if_neg harity])

theorem explains_failingArg? : (args : List Expr) →
    Explains r document (failingArg? r document args) (evalArgs r document args).outcome
  | [] => by
      rw [failingArg?, evalArgs]
      exact explains_ok _
  | e :: es => by
      rw [failingArg?, evalArgs, Run.outcome_bind]
      refine (explains_failing? e).bind fun v _ _ => ?_
      rw [Run.outcome_bind, ← Option.or_none (o := failingArg? r document es)]
      exact (explains_failingArg? es).bind fun vs _ _ => explains_ok _

end

end Expr

/-! ## The same course of evaluation -/

/-- The expressions are evaluated to the same result with the same
notices, or to the same error, which the same node raises. -/
structure SameCourse (r : Registry) (document : Json) (e e' : Expr) : Prop where
  eval : e.eval r document = e'.eval r document
  failing : e.failing? r document = e'.failing? r document

namespace SameCourse

variable {r : Registry} {document : Json} {a b c left left' right right' : Expr}
  {p p' q q' : Option Position}

theorem refl (e : Expr) : SameCourse r document e e := ⟨rfl, rfl⟩

theorem symm (h : SameCourse r document a b) : SameCourse r document b a :=
  ⟨h.eval.symm, h.failing.symm⟩

theorem trans (h : SameCourse r document a b) (h' : SameCourse r document b c) :
    SameCourse r document a c :=
  ⟨h.eval.trans h'.eval, h.failing.trans h'.failing⟩

theorem congr (k : Connective) (hleft : SameCourse r document left left')
    (hright : SameCourse r document right right') :
    SameCourse r document (.binary k.op left right p) (.binary k.op left' right' q) where
  eval := by rw [Expr.eval_connective, Expr.eval_connective, hleft.eval, hright.eval]
  failing := by
    rw [Expr.failing?_connective, Expr.failing?_connective, hleft.eval, hleft.failing,
      hright.failing]

theorem failing?_assoc (k : Connective) :
    (Expr.binary k.op (.binary k.op a b p) c q).failing? r document =
      (Expr.binary k.op a (.binary k.op b c p') q').failing? r document := by
  have ha : Expr.Explains r document (a.failing? r document) (a.eval r document).outcome :=
    Expr.explains_failing? a
  have hb : Expr.Explains r document (b.failing? r document) (b.eval r document).outcome :=
    Expr.explains_failing? b
  simp only [Expr.failing?_connective]
  cases houter : (a.eval r document).outcome with
  | error err =>
      obtain ⟨n, hn, -⟩ := ha.of_error houter
      simp only [hn, Option.some_or]
  | ok u =>
      rw [ha.of_ok houter, Option.none_or, Option.none_or, k.decidedBy_ok]
      rw [Expr.eval_connective, Run.outcome_bind, houter, ok_bind]
      by_cases hu : u.truth = some k.decisive
      · have hdecided : (u.truth == some k.decisive) = true := beq_iff_eq.mpr hu
        rw [k.goOn_of_decisive hu, if_pos hdecided, if_pos hdecided, Option.none_or, if_pos]
        exact beq_iff_eq.mpr rfl
      · have hundecided : ¬ (u.truth == some k.decisive) = true := mt beq_iff_eq.mp hu
        rw [k.goOn_of_not_decisive hu, Run.outcome_bind, if_neg hundecided, if_neg hundecided]
        cases hinner : (b.eval r document).outcome with
        | error err =>
            obtain ⟨n, hn, -⟩ := hb.of_error hinner
            simp only [hn, Option.some_or]
        | ok v =>
            rw [hb.of_ok hinner, Option.none_or, Option.none_or, ok_bind, Run.outcome_pure,
              k.decidedBy_join hu]

theorem assoc (k : Connective) (a b c : Expr) (p q p' q' : Option Position) :
    SameCourse r document (.binary k.op (.binary k.op a b p) c q)
      (.binary k.op a (.binary k.op b c p') q') where
  eval := by simp only [Expr.eval_connective, bind_assoc, k.goOn_bind_goOn]
  failing := failing?_assoc k

end SameCourse

/-! ## Groupings -/

/-- The tree joins the operands, in their order and in some grouping. -/
inductive Groups (k : Connective) : List Expr → Expr → Prop where
  | operand (e : Expr) : Groups k [e] e
  | join {es fs : List Expr} {left right : Expr} (hleft : Groups k es left)
      (hright : Groups k fs right) (at? : Option Position) :
      Groups k (es ++ fs) (.binary k.op left right at?)

/-- The tree that leans to the right. -/
def Connective.rightChain (k : Connective) (first : Expr) : List Expr → Expr
  | [] => first
  | e :: es => .binary k.op first (k.rightChain e es) none

/-- The tree that leans to the left, with the places of its operators. -/
def Connective.leftChain (k : Connective) (first : Expr)
    (more : List (Option Position × Expr)) : Expr :=
  more.foldl (fun left e => .binary k.op left e.2 e.1) first

section Groupings

variable {r : Registry} {document : Json} {k : Connective}

theorem sameCourse_rightChain_append (e f : Expr) (es fs : List Expr) (at? : Option Position) :
    SameCourse r document (.binary k.op (k.rightChain e es) (k.rightChain f fs) at?)
      (k.rightChain e (es ++ f :: fs)) := by
  induction es generalizing e at? with
  | nil => exact .congr k (.refl e) (.refl _)
  | cons e' es ih =>
      have hassoc : SameCourse r document
          (.binary k.op (.binary k.op e (k.rightChain e' es) none) (k.rightChain f fs) at?)
          (.binary k.op e (.binary k.op (k.rightChain e' es) (k.rightChain f fs) none) none) :=
        .assoc k ..
      exact hassoc.trans (.congr k (.refl e) (ih e' none))

theorem Groups.exists_rightChain (r : Registry) (document : Json) {es : List Expr} {e : Expr}
    (h : Groups k es e) :
    ∃ first rest, es = first :: rest ∧ SameCourse r document e (k.rightChain first rest) := by
  induction h with
  | operand e => exact ⟨e, [], rfl, .refl e⟩
  | join _ _ at? ihleft ihright =>
      obtain ⟨e, es, rfl, hleft⟩ := ihleft
      obtain ⟨f, fs, rfl, hright⟩ := ihright
      exact ⟨e, es ++ f :: fs, rfl,
        (SameCourse.congr k hleft hright).trans (sameCourse_rightChain_append e f es fs at?)⟩

theorem Groups.sameCourse {es : List Expr} {e e' : Expr} (h : Groups k es e)
    (h' : Groups k es e') : SameCourse r document e e' := by
  obtain ⟨first, rest, rfl, hchain⟩ := h.exists_rightChain r document
  obtain ⟨_, _, heq, hchain'⟩ := h'.exists_rightChain r document
  obtain ⟨rfl, rfl⟩ := List.cons.inj heq
  exact hchain.trans hchain'.symm

theorem groups_leftChain (first : Expr) (more : List (Option Position × Expr)) :
    Groups k (first :: more.map (·.2)) (k.leftChain first more) := by
  have hgroups : ∀ (more : List (Option Position × Expr)) (es : List Expr) (left : Expr),
      Groups k es left → Groups k (es ++ more.map (·.2)) (k.leftChain left more) := by
    intro more
    induction more with
    | nil =>
        intro es left h
        rw [List.map_nil, List.append_nil]
        exact h
    | cons e more ih =>
        intro es left h
        have hjoin := ih _ _ (h.join (.operand e.2) e.1)
        rwa [List.append_assoc] at hjoin
  exact hgroups more [first] first (.operand first)

end Groupings

/-! ## Chains as written -/

/-- The nonterminal of a chain. -/
def Connective.phrase : Connective → Nonterminal
  | and => .and
  | or => .or

/-- The nonterminal of the operands of a chain. -/
def Connective.operand : Connective → Nonterminal
  | and => .not
  | or => .and

/-- Operands with the word of the connective in front of each. -/
inductive Continues (k : Connective) : List Token → List (Token × RawExpr) → List Token → Prop where
  | nil {rest : List Token} : Continues k rest [] rest
  | cons {word : Token} {tokens more rest : List Token} {e : RawExpr} {es : List (Token × RawExpr)}
      (hword : word.kind = .keyword k.word) (h : Derives k.operand tokens e more)
      (hs : Continues k more es rest) : Continues k (word :: tokens) ((word, e) :: es) rest

/-- A chain without parentheses around its operands. -/
def Flat (k : Connective) (tokens : List Token) (first : RawExpr)
    (more : List (Token × RawExpr)) (rest : List Token) : Prop :=
  ∃ others, Derives k.operand tokens first others ∧ Continues k others more rest

section Flat

variable {k : Connective} {tokens others rest : List Token} {left right first : RawExpr}
  {word : Token} {more : List (Token × RawExpr)} {ctx : ParseContext}

theorem Connective.derives_operand (h : Derives k.operand tokens first rest) :
    Derives k.phrase tokens first rest := by
  cases k with
  | and => exact .not_and h
  | or => exact .and_or h

theorem Connective.derives_binary (hleft : Derives k.phrase tokens left (word :: others))
    (hword : word.kind = .keyword k.word) (hright : Derives k.operand others right rest) :
    Derives k.phrase tokens (.binary k.op word left right) rest := by
  cases k with
  | and => exact .and hleft hword hright
  | or => exact .or hleft hword hright

theorem Connective.derives_or (h : Derives k.phrase tokens first rest) :
    Derives .or tokens first rest := by
  cases k with
  | and => exact .and_or h
  | or => exact h

/-- A chain that goes on is derived to the left. -/
theorem Continues.exists_derives (h : Continues k others more rest)
    (hleft : Derives k.phrase tokens left others) (hadmitted : left.Admitted ctx)
    (hmore : ∀ e ∈ more, e.2.Admitted ctx) :
    ∃ raw, Derives k.phrase tokens raw rest ∧ raw.Admitted ctx ∧
      raw.expr ctx.parameters ctx.aliases =
        k.leftChain (left.expr ctx.parameters ctx.aliases)
          (more.map fun e => (e.1.position, e.2.expr ctx.parameters ctx.aliases)) := by
  induction h generalizing left with
  | nil => exact ⟨left, hleft, hadmitted, rfl⟩
  | @cons word _ _ _ e es hword h hs ih =>
      obtain ⟨he, hes⟩ := List.forall_mem_cons.mp hmore
      exact ih (Connective.derives_binary hleft hword h)
        (RawExpr.admitted_binary_iff.mpr ⟨hadmitted, he⟩) hes

/-- A chain without parentheses is read as the tree that leans to the
left. -/
theorem read_of_flat (h : Flat k tokens first more rest) (hfirst : first.Admitted ctx)
    (hmore : ∀ e ∈ more, e.2.Admitted ctx) (hstops : Stops 0 rest) :
    Expr.read ctx tokens =
      .ok (k.leftChain (first.expr ctx.parameters ctx.aliases)
        (more.map fun e => (e.1.position, e.2.expr ctx.parameters ctx.aliases)), rest) := by
  obtain ⟨others, hderives, hcontinues⟩ := h
  obtain ⟨raw, hraw, hadmitted, hexpr⟩ :=
    hcontinues.exists_derives (Connective.derives_operand hderives) hfirst hmore
  rw [← hexpr]
  exact read_of_derives (Connective.derives_or hraw) hadmitted hstops

end Flat

/-- **The grouping of a chain of AND or OR is irrelevant.** On every
document, with any functions, either way to group three operands takes
the same course, and so do any two groupings of a longer chain: the same
result or the same error of the same node, and the same notices. What is
read from a chain without parentheses takes the course of them all. -/
theorem eval_grouping (k : Connective) (r : Registry) (document : Json) :
    (∀ (a b c : Expr) (p q p' q' : Option Position),
        SameCourse r document (.binary k.op (.binary k.op a b p) c q)
          (.binary k.op a (.binary k.op b c p') q')) ∧
      (∀ (es : List Expr) (e e' : Expr), Groups k es e → Groups k es e' →
        SameCourse r document e e') ∧
      ∀ (ctx : ParseContext) (tokens rest : List Token) (first : RawExpr)
        (more : List (Token × RawExpr)), Flat k tokens first more rest → first.Admitted ctx →
        (∀ e ∈ more, e.2.Admitted ctx) → Stops 0 rest →
        ∃ e, Expr.read ctx tokens = .ok (e, rest) ∧
          ∀ e', Groups k ((first :: more.map (·.2)).map (·.expr ctx.parameters ctx.aliases)) e' →
            SameCourse r document e e' := by
  refine ⟨SameCourse.assoc k, fun es e e' h h' => h.sameCourse h', ?_⟩
  intro ctx tokens rest first more hflat hfirst hmore hstops
  refine ⟨_, read_of_flat hflat hfirst hmore hstops, fun e' h => ?_⟩
  have hread := groups_leftChain (k := k) (first.expr ctx.parameters ctx.aliases)
    (more.map fun e => (some e.1.position, e.2.expr ctx.parameters ctx.aliases))
  refine hread.sameCourse ?_
  simpa [Function.comp_def] using h

/-- The second operand cannot be negated, unless the first decides. -/
theorem eval_grouping_negated :
    let place : Position := .start
    let name (s : String) : Token := ⟨.identifier, place, s⟩
    let word (k : Keyword) : Token := ⟨.keyword k, place, k.name⟩
    let ctx : ParseContext := ⟨.standard, [], ["c"], place⟩
    let path (s : String) : Expr := .property s [s] (some place)
    let document : Json := .obj [("a", .bool true), ("b", .int 1)]
    ∃ e, Expr.read ctx [name "a", word .and, word .not, name "b", word .and, name "d"] =
        .ok (e, []) ∧
      SameCourse .standard document e
        (.binary .and (path "a")
          (.binary .and (.unary .not (path "b") (some place)) (path "d") none) none) := by
  intro place name word ctx path document
  have hpath : ∀ (s : String) (rest : List Token),
      Derives .not (name s :: rest) (.path ⟨name s, []⟩) rest := fun s rest =>
    .comparison_not (.operand_comparison (.path (.mk rfl .nil)))
  have hflat : Flat .and
      [name "a", word .and, word .not, name "b", word .and, name "d"] (.path ⟨name "a", []⟩)
      [(word .and, .not (word .not) (.path ⟨name "b", []⟩)), (word .and, .path ⟨name "d", []⟩)]
      [] :=
    ⟨_, hpath .., .cons rfl (.not rfl (hpath ..)) (.cons rfl (hpath ..) .nil)⟩
  obtain ⟨e, hread, hsame⟩ := (eval_grouping .and .standard document).2.2 ctx _ _ _ _ hflat
    (RawExpr.admitted_path _)
    (by simp [RawExpr.admitted_path, RawExpr.admitted_not_iff]) (by simp [Stops])
  exact ⟨e, hread, hsame _ (.join (.operand _) (.join (.operand _) (.operand _) none) none)⟩

end DocStore
