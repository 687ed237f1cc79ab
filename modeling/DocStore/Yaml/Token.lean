import DocStore.Codec.Unicode
import DocStore.Yaml.Block
import DocStore.Yaml.Plain
import DocStore.Yaml.Quoted

/-!
# Tokens of a YAML text

Tokens show the structure of a document: indentation becomes tokens that
open and close blocks, and a scalar or a bracket that turns out to be a
key, by the colon behind it, gets a mark in front. A key that is not
marked as such must stand on one line and be no longer than 1024
characters.

`tokens` gives all tokens of a text in order; where the text cannot go
on, the fault stands in place of the next token.
-/

namespace DocStore.Yaml

/-- A line in front of a document that tells how to read it. -/
inductive Directive where
  | version (major : Nat)
  | tag (handle start : String)
  | other
deriving DecidableEq

/-- A token of a YAML text. -/
inductive Token where
  | directive (d : Directive)
  | documentStart
  | documentEnd
  | textEnd
  | blockSequence
  | blockMapping
  | blockEnd
  | sequenceOpen
  | sequenceClose
  | mappingOpen
  | mappingClose
  | item
  | comma
  | key
  | value
  | alias (name : String)
  | anchor (name : String)
  | tag (handle : Option String) (suffix : String)
  | scalar (text : List Char) (isPlain : Bool)
deriving DecidableEq

/-! ## Names, tags and directives -/

/-- A name of at least one character. -/
def name (c : Cursor) : Reading (String × Cursor) :=
  let cs := c.word isNameChar
  if cs.isEmpty then refuse else .ok (String.ofList cs, c.skip cs.length)

/-- The name of an anchor or an alias, the cursor standing on its
mark. -/
def anchorName (c : Cursor) : Reading (String × Cursor) := do
  let (s, c) ← name c.next
  let after := c.peek 0
  if endsWord after || after.any (['?', ':', ',', ']', '\x7d', '%', '@', '\x60'].contains ·) then
    return (s, c)
  else
    refuse

/-- A character of the address of a tag. -/
def isAddressChar (c : Char) : Bool :=
  c.isAlphanum || "-;/?:@&=+$,_.!~*'()[]%".toList.contains c

/-- The bytes of two hexadecimal digits each, after percent signs. -/
def addressBytes : List Char → Option Bytes
  | [] => some []
  | '%' :: a :: b :: rest => do
      let n ← hexValue? [a, b]
      return UInt8.ofNat n :: (← addressBytes rest)
  | c :: rest => return Codec.utf8 [c] ++ (← addressBytes rest)

/-- The address of a tag. -/
def address (c : Cursor) : Reading (String × Cursor) :=
  let cs := c.word isAddressChar
  if cs.isEmpty then
    refuse
  else
    match addressBytes cs >>= Codec.decodeUtf8? with
    | some s => .ok (String.ofList s, c.skip cs.length)
    | none => refuse

/-- The handle of a tag: an exclamation mark, or a name between two. -/
def handle (c : Cursor) : Reading (String × Cursor) :=
  if c.peek 0 ≠ some '!' then
    refuse
  else
    let inner := c.next.word isNameChar
    let closed := c.skip (inner.length + 1)
    if c.peek 1 = some ' ' then .ok ("!", c.next)
    else if closed.peek 0 = some '!' then .ok (String.ofList ('!' :: inner ++ ['!']), closed.next)
    else refuse

/-- A tag, the cursor standing on its mark. -/
def tag (c : Cursor) : Reading (Token × Cursor) := do
  let (t, c) ←
    if c.peek 1 = some '<' then do
      let (s, c) ← address (c.skip 2)
      if c.peek 0 = some '>' then pure (Token.tag none s, c.next) else refuse
    else if endsWord (c.peek 1) then
      pure (Token.tag none "!", c.next)
    else do
      let isNamed := (c.next.word fun x => !endsName (some x)).contains '!'
      let (h, c) ← if isNamed then handle c else pure ("!", c.next)
      let (s, c) ← address c
      pure (Token.tag (some h) s, c)
  if endsName (c.peek 0) then return (t, c) else refuse

/-- A number of a version. -/
def versionNumber (c : Cursor) : Reading (Nat × Cursor) :=
  let ds := c.word Char.isDigit
  if ds.isEmpty then refuse else .ok (Nat.ofDigitChars 10 ds 0, c.skip ds.length)

/-- A directive, the cursor standing on its mark. -/
def directive (c : Cursor) : Reading (Token × Cursor) := do
  let (s, c) ← name c.next
  if !endsName (c.peek 0) then refuse
  let (d, c) ←
    if s = "YAML" then do
      let (major, c) ← versionNumber c.skipBlanks
      if c.peek 0 ≠ some '.' then refuse
      let (_, c) ← versionNumber c.next
      if endsName (c.peek 0) then pure (Directive.version major, c) else refuse
    else if s = "TAG" then do
      let (h, c) ← handle c.skipBlanks
      if c.peek 0 ≠ some ' ' then refuse
      let (start, c) ← address c.skipBlanks
      if endsName (c.peek 0) then pure (Directive.tag h start, c) else refuse
    else
      pure (Directive.other, c.skipLine)
  let c := c.skipComment
  if endsLine (c.peek 0) then return (.directive d, c.next) else refuse

/-! ## The state of reading -/

/-- A token that may turn out to be a key: where among the tokens it
stands, and where in the text. It must be one if it stands where a block
has its keys. -/
structure PossibleKey where
  place : Nat
  required : Bool
  index : Nat
  line : Nat
  column : Nat

/-- How far a text has been read: the columns of open blocks, innermost
first, whether a key may start here, the possible keys inside each open
bracket, innermost first, and outside of all, and the tokens found. -/
structure Progress where
  cursor : Cursor
  columns : List Nat
  keyAllowed : Bool
  innerKey : Option PossibleKey
  outerKeys : List (Option PossibleKey)
  tokens : Array Token

namespace Progress

def start (cs : List Char) : Progress :=
  ⟨.start cs, [], true, none, [], #[]⟩

/-- Inside brackets, indentation counts for nothing. -/
def inFlow (p : Progress) : Bool := !p.outerKeys.isEmpty

/-- Adds a token. -/
def push (p : Progress) (t : Token) : Progress :=
  { p with tokens := p.tokens.push t }

/-- Adds a token at the cursor and goes on behind it. -/
def take (p : Progress) (n : Nat) (t : Token) : Progress :=
  { p.push t with cursor := p.cursor.skip n }

/-- Adds a token that ends at the given place. -/
def takeTo (p : Progress) (c : Cursor) (t : Token) : Progress :=
  { p.push t with cursor := c }

/-- Closes the blocks whose column lies behind the given one; without a
column, all blocks. -/
def unwind (p : Progress) (column : Option Nat) : Progress :=
  if p.inFlow then
    p
  else
    let closes (n : Nat) : Bool := column.all (· < n)
    { p with
      columns := p.columns.dropWhile closes
      tokens := p.tokens ++ ((p.columns.takeWhile closes).map fun _ => Token.blockEnd).toArray }

/-- The column lies behind that of the innermost block. -/
def opensBlock (p : Progress) (column : Nat) : Bool :=
  p.columns.head?.all (· < column)

/-- Opens a block at the cursor, unless it is open already or inside
brackets. -/
def openBlock (p : Progress) (t : Token) : Progress :=
  if !p.inFlow && p.opensBlock p.cursor.column then
    { p.push t with columns := p.cursor.column :: p.columns }
  else
    p

/-! ### Possible keys -/

/-- Gives a possible key up; one that must be a key cannot be given
up. -/
def giveUp (key : Option PossibleKey) : Reading (Option PossibleKey) :=
  if key.any (·.required) then refuse else .ok none

/-- Gives up the possible key inside the innermost bracket. -/
def dropKey (p : Progress) : Reading Progress := do
  return { p with innerKey := ← giveUp p.innerKey }

/-- A possible key is given up once it is too far away. -/
def refreshed (c : Cursor) (key : Option PossibleKey) : Reading (Option PossibleKey) :=
  if key.any fun k => k.line ≠ c.line || 1024 < c.index - k.index then giveUp key else .ok key

/-- Gives up the possible keys that are too far away. -/
def refresh (p : Progress) : Reading Progress := do
  let innerKey ← refreshed p.cursor p.innerKey
  let outerKeys ← p.outerKeys.mapM (refreshed p.cursor)
  return { p with innerKey, outerKeys }

/-- The next token may be a key, if one may start here. -/
def markKey (p : Progress) : Reading Progress := do
  if !p.keyAllowed then
    return p
  else
    let p ← p.dropKey
    let c := p.cursor
    let required := !p.inFlow && p.columns.head? = some c.column
    return { p with innerKey := some ⟨p.tokens.size, required, c.index, c.line, c.column⟩ }

/-- Puts marks in front of a token that has turned out to be a key. -/
def insertKey (p : Progress) (key : PossibleKey) : Progress :=
  if !p.inFlow && p.opensBlock key.column then
    { p with
      tokens := p.tokens.take key.place ++ #[Token.blockMapping, Token.key] ++
        p.tokens.drop key.place
      columns := key.column :: p.columns }
  else
    { p with tokens := p.tokens.take key.place ++ #[Token.key] ++ p.tokens.drop key.place }

/-! ### Single tokens -/

/-- The end of the text, or a line that stands outside of all blocks. -/
def leaveBlocks (p : Progress) : Reading Progress := do
  let p ← (p.unwind none).dropKey
  return { p with keyAllowed := false }

/-- An opening bracket. -/
def openBracket (p : Progress) (t : Token) : Reading Progress := do
  let p ← p.markKey
  return { p.take 1 t with
    keyAllowed := true, innerKey := none, outerKeys := p.innerKey :: p.outerKeys }

/-- A closing bracket. -/
def closeBracket (p : Progress) (t : Token) : Reading Progress := do
  match p.outerKeys with
  | [] => refuse
  | key :: outer =>
      return { p.take 1 t with keyAllowed := false, innerKey := key, outerKeys := outer }

/-- The dash of an item. -/
def readItem (p : Progress) : Reading Progress := do
  if !p.inFlow && !p.keyAllowed then refuse
  let p ← (p.openBlock .blockSequence).dropKey
  return { p.take 1 .item with keyAllowed := true }

/-- The question mark of a key. -/
def readKey (p : Progress) : Reading Progress := do
  if !p.inFlow && !p.keyAllowed then refuse
  let p ← (p.openBlock .blockMapping).dropKey
  return { p.take 1 .key with keyAllowed := !p.inFlow }

/-- The colon of a value. -/
def readValue (p : Progress) : Reading Progress := do
  match p.innerKey with
  | some key =>
      let p := { p with innerKey := none }
      return { (p.insertKey key).take 1 .value with keyAllowed := false }
  | none =>
      if !p.inFlow && !p.keyAllowed then refuse
      let p := p.openBlock .blockMapping
      return { p.take 1 .value with keyAllowed := !p.inFlow }

/-- A scalar in quotes, an anchor, an alias or a tag, any of which may
start a key. -/
def readAtom (p : Progress) (read : Cursor → Reading (Token × Cursor)) : Reading Progress := do
  let p ← p.markKey
  let (t, c) ← read p.cursor
  return { p.takeTo c t with keyAllowed := false }

/-- The least column of the lines of a scalar. -/
def indent (p : Progress) : Nat :=
  (p.columns.head?.map (· + 1)).getD 0

def readBlock (p : Progress) : Reading Progress := do
  let p ← p.dropKey
  let (s, c) ← blockText p.indent p.cursor
  return { p.takeTo c (.scalar s false) with keyAllowed := true }

def readPlain (p : Progress) : Reading Progress := do
  let p ← p.markKey
  let (s, lineEnded, c) := plainText p.inFlow p.indent p.cursor
  return { p.takeTo c (.scalar s true) with keyAllowed := lineEnded }

/-! ### All tokens -/

/-- Goes on to the next token, over blanks, comments and line breaks;
`fuel` bounds the number of lines. At the start of a line a key may
begin. -/
def skipGap : Nat → Progress → Progress
  | 0, p => p
  | fuel + 1, p =>
      let c := p.cursor.skipComment
      match c.peek 0 with
      | some x =>
          if isBreak x then
            skipGap fuel { p with cursor := c.next, keyAllowed := p.keyAllowed || !p.inFlow }
          else
            { p with cursor := c }
      | none => { p with cursor := c }

/-- A plain scalar can start here. -/
def startsPlain (inFlow : Bool) (c after : Option Char) : Bool :=
  match c with
  | none => false
  | some x =>
      if x = '-' then !endsWord after
      else if x = '?' || x = ':' then !endsWord after && !inFlow
      else !endsWord c && !(",[]\x7b\x7d#&*!|>'\"%@\x60".toList.contains x)

/-- Reads the next token; none is left at the end of the text. -/
def step (p : Progress) : Reading (Progress × Bool) := do
  let p := p.skipGap (p.cursor.rest.length + 1)
  let p ← p.refresh
  let p := p.unwind (some p.cursor.column)
  let c := p.cursor
  let after := c.peek 1
  let goOn (r : Reading Progress) : Reading (Progress × Bool) := r.map (·, true)
  match c.peek 0 with
  | none => do
      let p ← p.leaveBlocks
      return (p.push .textEnd, false)
  | some x =>
      if x = '%' && c.column = 0 then goOn do
        let p ← p.leaveBlocks
        let (t, c) ← directive p.cursor
        return p.takeTo c t
      else if c.column = 0 && c.mark?.isSome then goOn do
        let p ← p.leaveBlocks
        return p.take 3 (if x = '-' then .documentStart else .documentEnd)
      else if x = '[' then goOn (p.openBracket .sequenceOpen)
      else if x = '\x7b' then goOn (p.openBracket .mappingOpen)
      else if x = ']' then goOn (p.closeBracket .sequenceClose)
      else if x = '\x7d' then goOn (p.closeBracket .mappingClose)
      else if x = ',' then goOn do
        let p ← p.dropKey
        return { p.take 1 .comma with keyAllowed := true }
      else if x = '-' && endsWord after then goOn p.readItem
      else if x = '?' && (p.inFlow || endsWord after) then goOn p.readKey
      else if x = ':' && (p.inFlow || endsWord after) then goOn p.readValue
      else if x = '*' then goOn <| p.readAtom fun c => do
        let (s, c) ← anchorName c
        return (.alias s, c)
      else if x = '&' then goOn <| p.readAtom fun c => do
        let (s, c) ← anchorName c
        return (.anchor s, c)
      else if x = '!' then goOn (p.readAtom tag)
      else if (x = '|' || x = '>') && !p.inFlow then goOn p.readBlock
      else if x = '\'' || x = '"' then goOn <| p.readAtom fun c => do
        let (s, c) ← quotedText c
        return (.scalar s false, c)
      else if startsPlain p.inFlow c.rest.head? after then goOn p.readPlain
      else refuse

/-- The tokens that no key can be put in front of any more. -/
def settled (p : Progress) : List Token :=
  let places := (p.innerKey :: p.outerKeys).filterMap fun key => key.map (·.place)
  p.tokens.toList.take (places.foldl min p.tokens.size)

/-- All tokens from here on; `fuel` bounds their number. -/
def run : Nat → Progress → List (Reading Token)
  | 0, p => p.settled.map .ok
  | fuel + 1, p =>
      match p.step with
      | .ok (p, true) => run fuel p
      | .ok (p, false) => p.tokens.toList.map .ok
      | .error e => p.settled.map .ok ++ [.error e]

end Progress

/-- The tokens of a text. -/
def tokens (cs : List Char) : List (Reading Token) :=
  (Progress.start cs).run (cs.length + 1)

end DocStore.Yaml
