import DocStore.Json.Basic

/-!
# Given values

A value that is to be checked need not be JSON: a settings file may name
its entries by other things than texts, and hold other things than JSON
has, such as dates. A JSON value is given as it is (`Given.ofJson`,
`Given.toJson_ofJson`).
-/

namespace DocStore.Validation

/-- What names an entry: a text, or something else that is shown as a
text. -/
inductive Key where
  | text (s : String)
  | other (shown : String)
deriving DecidableEq

namespace Key

/-- The key in messages. -/
def shown : Key → String
  | text s => s
  | other shown => shown

def isText : Key → Bool
  | text _ => true
  | other _ => false

end Key

/-- A value that is to be checked. -/
inductive Given where
  | null
  | bool (b : Bool)
  | int (n : Int)
  | float (x : Double)
  | text (s : String)
  | list (items : List Given)
  | map (entries : List (Key × Given))
  | other (shown : String)
deriving Inhabited

/-- The entries of a map. -/
abbrev Entries := Table Given Key

namespace Given

/-! ## JSON values as given values -/

mutual

/-- A JSON value, given. -/
def ofJson : Json → Given
  | .null => null
  | .bool b => bool b
  | .int n => int n
  | .float x => float x
  | .str s => text s
  | .arr vs => list (ofElements vs)
  | .obj fields => map (ofFields fields)

def ofElements : List Json → List Given
  | [] => []
  | v :: vs => ofJson v :: ofElements vs

/-- The fields of an object as entries. -/
def ofFields : List (String × Json) → List (Key × Given)
  | [] => []
  | (key, v) :: rest => (.text key, ofJson v) :: ofFields rest

end

mutual

/-- The value as far as JSON can say it. -/
def toJson : Given → Json
  | null => .null
  | bool b => .bool b
  | int n => .int n
  | float x => .float x
  | text s => .str s
  | list items => .arr (toElements items)
  | map entries => .obj (toFields entries)
  | other shown => .str shown

def toElements : List Given → List Json
  | [] => []
  | v :: vs => toJson v :: toElements vs

def toFields : List (Key × Given) → List (String × Json)
  | [] => []
  | (key, v) :: rest => (key.shown, toJson v) :: toFields rest

end

mutual

theorem toJson_ofJson : ∀ v : Json, (ofJson v).toJson = v
  | .null | .bool _ | .int _ | .float _ | .str _ => by simp only [ofJson, toJson]
  | .arr vs => by simp only [ofJson, toJson, toElements_ofElements vs]
  | .obj fields => by simp only [ofJson, toJson, toFields_ofFields fields]

theorem toElements_ofElements : ∀ vs : List Json, toElements (ofElements vs) = vs
  | [] => rfl
  | v :: vs => by simp only [ofElements, toElements, toJson_ofJson v, toElements_ofElements vs]

theorem toFields_ofFields : ∀ fields : List (String × Json), toFields (ofFields fields) = fields
  | [] => rfl
  | (key, v) :: rest => by
      simp only [ofFields, toFields, Key.shown, toJson_ofJson v, toFields_ofFields rest]

end

end Given

/-- All entries are named by texts. -/
def Entries.namesAreTexts (entries : Entries) : Bool :=
  entries.all fun e => e.1.isText

end DocStore.Validation
