import DocStore.Json.Display
import DocStore.Yaml.Node
import DocStore.Yaml.Scalar

/-!
# YAML documents

A text holds at most one document, whose nodes make up a value
(`Yaml.parse`). A mapping takes over the entries of other mappings under
the merge key, in front of its own (`Node.resolveMerges`), and of two
entries of one key the later one counts, in the place of the first.

Collections are filled level by level: the scalars of a collection are
taken before anything inside the collections that it holds. That decides
which of several faults counts (`Built.faults`).
-/

namespace DocStore.Yaml

open Validation

/-! ## Merging mappings -/

namespace Node

/-- A node that has no value at all. -/
def faulty : Node := .scalar .foreign []

/-- The entries that a mapping takes over from a value of the merge key:
a mapping, or mappings in a sequence, of which the first counts most. -/
def mergedEntries : Node → List (Node × Node)
  | .mapping _ entries => entries
  | .sequence _ items =>
      items.reverse.flatMap fun
        | .mapping _ entries => entries
        | _ => [(faulty, empty)]
  | .scalar _ _ => [(faulty, empty)]

/-- An entry under the merge key. -/
def isMerge (entry : Node × Node) : Bool :=
  match entry.1 with
  | .scalar .merge _ => true
  | _ => false

/-- A key that stands for the standard value of a mapping is a text. -/
def plainKey (entry : Node × Node) : Node × Node :=
  match entry.1 with
  | .scalar .default text => (.scalar .text text, entry.2)
  | _ => entry

/-- The entries of a mapping whose values hold no merge keys any more:
those taken over, then its own. A fault among the entries to take over
comes first. -/
def withMerged (entries : List (Node × Node)) : List (Node × Node) :=
  let (merges, own) := entries.partition isMerge
  let taken := merges.flatMap fun e => mergedEntries e.2
  let isFaulty (e : Node × Node) : Bool :=
    match e.1 with
    | .scalar .foreign [] => true
    | _ => false
  taken.filter isFaulty ++ taken.filter (fun e => !isFaulty e) ++ own.map plainKey

mutual

/-- The node without merge keys. -/
def resolveMerges : Node → Node
  | .scalar tag text => .scalar tag text
  | .sequence tag items => .sequence tag (resolveItems items)
  | .mapping tag entries => .mapping tag (withMerged (resolveEntries entries))

def resolveItems : List Node → List Node
  | [] => []
  | n :: rest => resolveMerges n :: resolveItems rest

def resolveEntries : List (Node × Node) → List (Node × Node)
  | [] => []
  | (k, v) :: rest => (resolveMerges k, resolveMerges v) :: resolveEntries rest

end

end Node

/-! ## Keys -/

/-- The numbers that values count as when keys are compared. -/
def keyNumber? : Given → Option Json
  | .bool b => some (.int (if b then 1 else 0))
  | .int n => some (.int n)
  | .float x => (x.toInt?.map Json.int).getD (.float x)
  | _ => none

/-- Two values are one key; numbers are compared by value, and NaN is no
other key. -/
def sameKey (a b : Given) : Bool :=
  match a, b with
  | .text s, .text t => s == t
  | .null, .null => true
  | .other s, .other t => s == t
  | a, b =>
      match keyNumber? a, keyNumber? b with
      | some (.int m), some (.int n) => m == n
      | some (.float x), some (.float y) => x.compare? y == some .eq
      | _, _ => false

/-- Writes an entry: in the place of the same key, or at the end. -/
def putEntry (entries : List (Given × Given)) (key value : Given) : List (Given × Given) :=
  match entries with
  | [] => [(key, value)]
  | (k, v) :: rest =>
      if sameKey k key then (k, value) :: rest else (k, v) :: putEntry rest key value

/-- The key of an entry. -/
def keyOf : Given → Key
  | .text s => .text s
  | .bool b => .other (if b then "1" else "0")
  | g => .other g.toJson.plainDisplay

/-- The map of entries written one after the other. -/
def mapOf (entries : List (Given × Given)) : Given :=
  let distinct := entries.foldl (fun es (k, v) => putEntry es k v) []
  .map (distinct.map fun (k, v) => (keyOf k, v))

/-! ## Building values -/

/-- What a node is worth, the faults that show at once, and those that
show when its collections are filled, by their level. -/
structure Built where
  value : Given
  here : List Fault
  below : List (List Fault)

/-- Levels side by side. -/
def joinLevels : List (List Fault) → List (List Fault) → List (List Fault)
  | [], ys => ys
  | xs, [] => xs
  | x :: xs, y :: ys => (x ++ y) :: joinLevels xs ys

namespace Built

/-- All faults, in the order in which they show. -/
def faults (b : Built) : List Fault :=
  b.here ++ b.below.flatten

def ofScalar (tag : Tag) (text : List Char) : Built :=
  match scalarValue tag text with
  | .ok v => ⟨v, [], []⟩
  | .error e => ⟨.null, [e], []⟩

/-- The levels of the parts of a collection, below the faults of the
parts themselves. -/
def levels (parts : List Built) : List (List Fault) :=
  parts.flatMap (·.here) :: parts.foldr (fun b ls => joinLevels b.below ls) []

/-- A collection must be meant to be one, and of its own kind. -/
def ofCollection (tag own other : Tag) (value : Given) (parts : List Built) : Built :=
  if tag = own then ⟨value, [], levels parts⟩
  else if tag = other then ⟨value, [], [[.malformed]]⟩
  else ⟨value, [.malformed], []⟩

/-- A key may be no collection. -/
def asKey (n : Node) (b : Built) : Built :=
  match n with
  | .scalar _ _ => b
  | _ => { b with here := b.here ++ [.malformed] }

end Built

namespace Node

mutual

/-- Builds the value of a node without merge keys. -/
def build : Node → Built
  | .scalar tag text => .ofScalar tag text
  | .sequence tag items =>
      let parts := buildItems items
      .ofCollection tag .sequence .mapping (.list (parts.map (·.value))) parts
  | .mapping tag entries =>
      let parts := buildEntries entries
      .ofCollection tag .mapping .sequence
        (mapOf (parts.map fun (k, v) => (k.value, v.value)))
        (parts.flatMap fun (k, v) => [k, v])

def buildItems : List Node → List Built
  | [] => []
  | n :: rest => build n :: buildItems rest

def buildEntries : List (Node × Node) → List (Built × Built)
  | [] => []
  | (k, v) :: rest => (.asKey k (build k), build v) :: buildEntries rest

end

/-- The value of a document. -/
def value (n : Node) : Reading Given :=
  let b := n.resolveMerges.build
  match b.faults with
  | [] => .ok b.value
  | e :: _ => .error e

end Node

/-! ## Texts -/

/-- A character that may stand in a document. -/
def isAllowed (c : Char) : Bool :=
  let n := c.toNat
  n = 9 || n = 10 || n = 13 || (0x20 ≤ n && n ≤ 0x7E) || n = 0x85 ||
    (0xA0 ≤ n && n ≤ 0xFFFD) || 0x10000 ≤ n

/-- A carriage return, with a line feed or alone, is a line feed. -/
def unifyBreaks : List Char → List Char
  | [] => []
  | '\r' :: '\n' :: cs => '\n' :: unifyBreaks cs
  | '\r' :: cs => '\n' :: unifyBreaks cs
  | c :: cs => c :: unifyBreaks cs

/-- Reads a YAML text; a text without a document is null. -/
def parse (text : String) : Reading Given :=
  let cs := unifyBreaks text.toList
  let cs := if cs.head? = some byteOrderMark then cs.drop 1 else cs
  if !cs.all isAllowed then
    refuse
  else do
    match ← Node.ofTokens (tokens cs) with
    | none => return .null
    | some n => n.value

end DocStore.Yaml
