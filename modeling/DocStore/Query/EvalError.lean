import DocStore.Json.Order
import DocStore.Query.ErrorReport
import DocStore.Query.Function
import DocStore.Query.Statement

/-!
# Evaluation errors

Why an expression has no value on a document. Two causes lie with the
document (`EvalError.isDocumentLevel`): operands whose kinds a
comparison or a negation does not take. A function may say so too.
-/

namespace DocStore

/-- Why an expression has no value on a document. -/
inductive EvalError where
  | unsupportedComparison (op : Comparison) (left right : Kind) (at? : Option Position)
  | invalidOperand (kind : Kind) (at? : Option Position)
  | unknownFunction (name : String) (at? : Option Position)
  | wrongArity (name : String) (arity : Int) (given : Nat) (at? : Option Position)
  | unsupportedOperator (op : BinaryOp) (at? : Option Position)
  | overflow (e : Overflow)
  | call (e : CallError)
deriving DecidableEq

namespace EvalError

/-- The document is at fault, so that a lenient query may pass over
it. -/
def isDocumentLevel : EvalError → Bool
  | unsupportedComparison .. | invalidOperand .. => true
  | call e => e.isDocumentLevel
  | _ => false

def label : EvalError → String
  | unsupportedComparison .. => "UnsupportedComparisonError"
  | invalidOperand .. => "InvalidOperandError"
  | unknownFunction .. => "UnknownFunctionError"
  | wrongArity .. => "EvaluationError"
  | unsupportedOperator .. => "UnsupportedOperatorError"
  | overflow _ => "OverflowError"
  | call e => e.report.label

def message : EvalError → String
  | unsupportedComparison op left right _ =>
      "Operator '" ++ op.symbol ++ "' is not supported between " ++ left.name ++ " and " ++
        right.name
  | invalidOperand kind _ =>
      "Operator '" ++ UnaryOp.not.symbol ++ "' requires a boolean operand, got " ++ kind.name
  | unknownFunction name _ => "Unknown function: " ++ name
  | wrongArity name arity given _ =>
      "Function " ++ name ++ " expects " ++ intText arity ++ " argument(s), got " ++ natText given
  | unsupportedOperator op _ => "Unsupported operator: " ++ op.symbol
  | overflow e => e.message
  | call e => e.report.message

def position? : EvalError → Option Position
  | unsupportedComparison _ _ _ p | invalidOperand _ p | unknownFunction _ p
  | wrongArity _ _ _ p | unsupportedOperator _ p => p
  | overflow _ => none
  | call e => e.report.position

def report : EvalError → ErrorReport
  | call e => e.report
  | e => ⟨e.label, e.message, e.position?, none, none⟩

end EvalError

end DocStore
