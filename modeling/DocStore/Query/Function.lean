import DocStore.Json.Writer
import DocStore.Query.ErrorReport
import DocStore.Query.ParseError
import DocStore.Text.Case
import DocStore.Text.CloseMatch
import DocStore.Text.NumeralError

/-!
# Query functions

The functions that a query can call. The text functions look at the text
of a value (`Json.shownText`), in lower case; a missing or null argument
makes them false, and a value that cannot be shown makes them fail. A
registry finds functions by name, whatever its case; registering a name
again replaces the function.

A function that is registered may fail in any way of its own
(`CallError.raised`).
-/

namespace DocStore

/-- Why a function gives no value: it was run on another number of
arguments than it takes, it needs the text of a value that cannot be
shown, or it raised an error of its own. Such an error may be of the
classes that say that the document is at fault. -/
inductive CallError where
  | wrongArgumentCount
  | unshowable
  | raised (report : ErrorReport) (documentLevel : Bool)
deriving DecidableEq

namespace CallError

/-- What is reported of the error. The message about a number of
arguments names the code of the function, which queries do not know. -/
def report : CallError → ErrorReport
  | wrongArgumentCount => .plain "TypeError" ""
  | unshowable => .plain "ValueError" Text.unshowableMessage
  | raised report _ => report

/-- The error says that the document is at fault. -/
def isDocumentLevel : CallError → Bool
  | wrongArgumentCount | unshowable => false
  | raised _ documentLevel => documentLevel

end CallError

/-- A function with the number of arguments that queries must give
it. -/
structure QueryFunction where
  arity : Int
  run : List Value → Except CallError Value

namespace QueryFunction

/-- The shape of a function as listings show it. -/
def signature (f : QueryFunction) : String :=
  "(" ++ ", ".intercalate (List.replicate f.arity.toNat "any") ++ ") -> " ++ Kind.boolean.name

/-- A test of one value. -/
def ofTest (test : Value → Except CallError Bool) : QueryFunction where
  arity := 1
  run
    | [v] => (test v).map fun b => some (.bool b)
    | _ => .error .wrongArgumentCount

/-- A test of two values. -/
def ofTest₂ (test : Value → Value → Except CallError Bool) : QueryFunction where
  arity := 2
  run
    | [v, w] => (test v w).map fun b => some (.bool b)
    | _ => .error .wrongArgumentCount

end QueryFunction

/-! ## The built-in functions -/

/-- A value that is neither missing nor null. -/
def Value.present? : Value → Option Json
  | none => none
  | some .null => none
  | some v => some v

/-- The text of a value, if it can be shown. -/
def Json.shownText (v : Json) : Except CallError String :=
  if v.isShowable then .ok v.text else .error .unshowable

/-- The text of a value in lower case, if it can be shown. -/
def Json.searchText (v : Json) : Except CallError (List Char) :=
  v.shownText.map fun s => Text.lower s.toList

/-- The text occurs somewhere in the other. -/
def occursIn (part : List Char) : List Char → Bool
  | [] => part.isEmpty
  | c :: cs => part.isPrefixOf (c :: cs) || occursIn part cs

/-- The text of the second value occurs in the text of the first. -/
def containsText (value part : Value) : Except CallError Bool :=
  match value.present?, part.present? with
  | some v, some w => do
      let part ← w.searchText
      let whole ← v.searchText
      return occursIn part whole
  | _, _ => .ok false

/-- The text of the first value starts with the text of the second. -/
def startsWithText (value start : Value) : Except CallError Bool :=
  match value.present?, start.present? with
  | some v, some w => do
      let whole ← v.searchText
      let start ← w.searchText
      return start.isPrefixOf whole
  | _, _ => .ok false

/-- The first value is an array with an element whose text is that of
the second. Elements behind the first such one are not looked at. -/
def arrayContains (array item : Value) : Except CallError Bool :=
  match array, item.present? with
  | some (.arr vs), some w => do
      let item ← w.searchText
      vs.anyM fun v => return (← v.searchText) == item
  | _, _ => .ok false

/-- The value is null; a missing one is not. -/
def isNull : Value → Bool
  | some .null => true
  | _ => false

/-- The value is not missing. -/
def isDefined (v : Value) : Bool :=
  v.isSome

/-! ## Registries -/

/-- Functions by their names in upper case. -/
structure Registry where
  entries : Table QueryFunction

namespace Registry

/-- Finds a function, whatever the case of its name. -/
def lookup (r : Registry) (name : String) : Option QueryFunction :=
  r.entries.get? name.upperCase

/-- Adds a function or replaces the one of that name. -/
def register (r : Registry) (name : String) (f : QueryFunction) : Registry :=
  ⟨r.entries.put name.upperCase f⟩

/-- The built-in functions by name. -/
def builtins : Table QueryFunction :=
  [("CONTAINS", .ofTest₂ containsText), ("STARTSWITH", .ofTest₂ startsWithText),
    ("ARRAY_CONTAINS", .ofTest₂ arrayContains), ("IS_NULL", .ofTest fun v => .ok (isNull v)),
    ("IS_DEFINED", .ofTest fun v => .ok (isDefined v))]

/-- The registry that holds the built-in functions alone. -/
def standard : Registry :=
  ⟨builtins⟩

/-- The names of all functions in the order of code points. -/
def names (r : Registry) : List String :=
  Text.sortTexts r.entries.keys

/-- What is offered for a name that is not registered. -/
def hint (r : Registry) (name : String) : FunctionHint :=
  match Text.closest? name r.names with
  | some close => .didYouMean close
  | none => .available r.names

end Registry

/-- Why a function could not be called by name. -/
inductive RegistryError where
  | unknownName (name : String)
  | wrongArity (name : String) (arity : Int) (given : Nat)
  | call (e : CallError)
deriving DecidableEq

def RegistryError.message : RegistryError → String
  | unknownName name => name.inQuotes
  | wrongArity name arity given =>
      "Function '" ++ name.upperCase ++ "' expects " ++ intText arity ++ " argument(s), got " ++
        natText given
  | call e => e.report.message

/-- Calls a function by name on the number of arguments that it
takes. -/
def Registry.call (r : Registry) (name : String) (args : List Value) :
    Except RegistryError Value :=
  match r.lookup name with
  | none => .error (.unknownName name)
  | some f =>
      if f.arity = args.length then
        (f.run args).mapError .call
      else
        .error (.wrongArity name f.arity args.length)

end DocStore
