import DocStore.Yaml.Form
import DocStore.Yaml.Token

/-!
# YAML nodes

A YAML document is a tree of scalars, sequences and mappings, each with
a tag that says what it is meant to be. `Node.ofTokens` reads the one
document that a text may hold; none is held by a text without tokens. A
node may be given a name, by which it is used again further on.
-/

namespace DocStore.Yaml

/-- A part of a YAML document. -/
inductive Node where
  | scalar (tag : Tag) (text : List Char)
  | sequence (tag : Tag) (items : List Node)
  | mapping (tag : Tag) (entries : List (Node × Node))

namespace Node

/-- What stands where nothing is written. -/
def empty : Node := .scalar .null []

/-! ## Reading tokens -/

/-- What is left of the tokens, the nodes that have names, and what the
handles of tags stand for. -/
structure Feed where
  tokens : List (Reading Token)
  named : Table Node
  handles : Table String

/-- A step of reading nodes. -/
abbrev Step := StateT Feed (Except Fault)

/-- The next token. -/
def look : Step Token := do
  match (← get).tokens with
  | [] => throw .malformed
  | .error e :: _ => throw e
  | .ok t :: _ => return t

/-- Passes over a token. -/
def drop : Step Unit :=
  modify fun f => { f with tokens := f.tokens.drop 1 }

/-- Passes over the given token, which must be the next one. -/
def expect (t : Token) : Step Unit := do
  if (← look) = t then drop else throw .malformed

/-- The next token is one of these. -/
def isNext (ts : List Token) : Step Bool := do
  return ts.contains (← look)

/-- Passes over the given token, if it is the next one. -/
def dropNext (t : Token) : Step Bool := do
  if (← look) = t then
    drop
    return true
  else
    return false

/-- The name and the tag of a node. -/
structure Properties where
  name : Option String
  tag : Option String

/-- A handle and an address put together. -/
def tagAddress (handle : Option String) (suffix : String) : Step String := do
  match handle with
  | none => return suffix
  | some h =>
      match (← get).handles.get? h with
      | some start => return start ++ suffix
      | none => throw .malformed

/-- The name and the tag of a node, in either order. -/
def properties : Step Properties := do
  match ← look with
  | .anchor name =>
      drop
      match ← look with
      | .tag handle suffix =>
          drop
          return ⟨some name, some (← tagAddress handle suffix)⟩
      | _ => return ⟨some name, none⟩
  | .tag handle suffix =>
      drop
      match ← look with
      | .anchor name =>
          drop
          return ⟨some name, some (← tagAddress handle suffix)⟩
      | _ => return ⟨none, some (← tagAddress handle suffix)⟩
  | _ => return ⟨none, none⟩

/-- No tag has been given, or the one that leaves the choice to the
form. -/
def Properties.isOpen (p : Properties) : Bool :=
  p.tag.all (· = "!")

/-- The tag given, or another. -/
def Properties.tagOr (p : Properties) (other : Tag) : Tag :=
  if p.isOpen then other else (p.tag.map Tag.ofAddress).getD other

/-- The scalar of a token: a plain one is taken by its form, a quoted
one as a text. -/
def ofScalar (p : Properties) (text : List Char) (isPlain : Bool) : Node :=
  .scalar (p.tagOr (if isPlain || p.tag.isSome then .ofPlain text else .text)) text

/-- Gives a node a name, which must be new. -/
def giveName (p : Properties) (n : Node) : Step Unit := do
  match p.name with
  | none => return ()
  | some name =>
      if (← get).named.has name then throw .malformed
      modify fun f => { f with named := f.named.put name n }

/-- Gives the name to a node that is complete by now. -/
def renewName (p : Properties) (n : Node) : Step Unit :=
  match p.name with
  | none => return ()
  | some name => modify fun f => { f with named := f.named.put name n }

/-- Reads a sequence or a mapping. Inside it, its name stands for an
empty one. -/
def collection {α : Type} (p : Properties) (make : List α → Node) (read : Step (List α)) :
    Step Node := do
  giveName p (make [])
  let n := make (← read)
  renewName p n
  return n

/-- What may stand where a node is read. -/
structure Place where
  block : Bool
  unindented : Bool
deriving DecidableEq

/-- Inside brackets. -/
def Place.flow : Place := ⟨false, false⟩

/-- In a block. -/
def Place.inBlock : Place := ⟨true, false⟩

/-- Behind a key of a block, where a sequence need not be indented. -/
def Place.entry : Place := ⟨true, true⟩

/-- A node, unless one of the given tokens comes next, which means that
none is written. -/
def unlessNext (ends : List Token) (read : Step Node) : Step Node := do
  if ← isNext ends then return empty else read

mutual

/-- Reads a node; `fuel` bounds the number of steps, here and below. -/
def read (fuel : Nat) (place : Place) : Step Node :=
  match fuel with
  | 0 => throw .malformed
  | fuel + 1 => do
      match ← look with
      | .alias name =>
          drop
          match (← get).named.get? name with
          | some n => return n
          | none => throw .malformed
      | _ =>
          let p ← properties
          let ofItems := Node.sequence (p.tagOr .sequence)
          let ofEntries := Node.mapping (p.tagOr .mapping)
          match ← look, place with
          | .item, ⟨_, true⟩ => collection p ofItems (readUnindented fuel)
          | .scalar text isPlain, _ => do
              let n := ofScalar p text isPlain
              giveName p n
              drop
              return n
          | .sequenceOpen, _ => collection p ofItems (do drop; readFlowItems fuel true)
          | .mappingOpen, _ => collection p ofEntries (do drop; readFlowEntries fuel true)
          | .blockSequence, ⟨true, _⟩ => collection p ofItems (do drop; readItems fuel)
          | .blockMapping, ⟨true, _⟩ => collection p ofEntries (do drop; readEntries fuel)
          | _, _ => do
              if p.name.isNone && p.tag.isNone then throw .malformed
              let n := ofScalar p [] true
              giveName p n
              return n

/-- The items of an indented sequence. -/
def readItems (fuel : Nat) : Step (List Node) :=
  match fuel with
  | 0 => throw .malformed
  | fuel + 1 => do
      if ← dropNext .item then
        let n ← unlessNext [.item, .blockEnd] (read fuel .inBlock)
        return n :: (← readItems fuel)
      else
        expect .blockEnd
        return []

/-- The items of a sequence that is not indented. -/
def readUnindented (fuel : Nat) : Step (List Node) :=
  match fuel with
  | 0 => throw .malformed
  | fuel + 1 => do
      if ← dropNext .item then
        let n ← unlessNext [.item, .key, .value, .blockEnd] (read fuel .inBlock)
        return n :: (← readUnindented fuel)
      else
        return []

/-- The entries of a mapping in a block. -/
def readEntries (fuel : Nat) : Step (List (Node × Node)) :=
  match fuel with
  | 0 => throw .malformed
  | fuel + 1 => do
      if ← dropNext .key then
        let ends := [.key, .value, .blockEnd]
        let k ← unlessNext ends (read fuel .entry)
        let v ← if ← dropNext .value then unlessNext ends (read fuel .entry) else pure empty
        return (k, v) :: (← readEntries fuel)
      else
        expect .blockEnd
        return []

/-- The items of a sequence in brackets; one that holds a colon is a
mapping of one entry. -/
def readFlowItems (fuel : Nat) (first : Bool) : Step (List Node) :=
  match fuel with
  | 0 => throw .malformed
  | fuel + 1 => do
      if ← dropNext .sequenceClose then
        return []
      else
        if !first then expect .comma
        if ← dropNext .sequenceClose then
          return []
        else
          let n ←
            if ← dropNext .key then do
              let ends := [.comma, .sequenceClose]
              let k ← unlessNext (.value :: ends) (read fuel .flow)
              let v ← if ← dropNext .value then unlessNext ends (read fuel .flow) else pure empty
              pure (.mapping .mapping [(k, v)])
            else
              read fuel .flow
          return n :: (← readFlowItems fuel false)

/-- The entries of a mapping in braces. -/
def readFlowEntries (fuel : Nat) (first : Bool) : Step (List (Node × Node)) :=
  match fuel with
  | 0 => throw .malformed
  | fuel + 1 => do
      if ← dropNext .mappingClose then
        return []
      else
        if !first then expect .comma
        if ← dropNext .mappingClose then
          return []
        else
          let ends := [.comma, .mappingClose]
          let entry ←
            if ← dropNext .key then do
              let k ← unlessNext (.value :: ends) (read fuel .flow)
              let v ← if ← dropNext .value then unlessNext ends (read fuel .flow) else pure empty
              pure (k, v)
            else do
              let k ← read fuel .flow
              pure (k, empty)
          return entry :: (← readFlowEntries fuel false)

end

/-! ## Documents -/

/-- The handles that need not be declared. -/
def standardHandles : Table String :=
  [("!", "!"), ("!!", "tag:yaml.org,2002:")]

/-- Reads the directives in front of a document; `fuel` bounds their
number. -/
def readDirectives (versionSeen : Bool) : Nat → Step Unit
  | 0 => throw .malformed
  | fuel + 1 => do
      match ← look with
      | .directive (.version major) =>
          drop
          if versionSeen || major ≠ 1 then throw .malformed
          readDirectives true fuel
      | .directive (.tag handle start) =>
          drop
          if (← get).handles.has handle then throw .malformed
          modify fun f => { f with handles := f.handles.put handle start }
          readDirectives versionSeen fuel
      | .directive .other =>
          drop
          readDirectives versionSeen fuel
      | _ =>
          modify fun f => { f with handles := standardHandles.putAll f.handles }

/-- Passes over the marks at the end of a document; `fuel` bounds their
number. -/
def dropEnds : Nat → Step Unit
  | 0 => return ()
  | fuel + 1 => do
      if ← dropNext .documentEnd then dropEnds fuel

/-- Reads the one document of a text; none if the text has no tokens. -/
def readDocument (fuel : Nat) : Step (Option Node) := do
  match ← look with
  | .textEnd => return none
  | t =>
      let isExplicit := match t with
        | .directive _ | .documentStart => true
        | _ => false
      let n ←
        if isExplicit then do
          readDirectives false fuel
          expect .documentStart
          match ← look with
          | .directive _ | .documentStart | .documentEnd | .textEnd => pure empty
          | _ => read fuel .inBlock
        else do
          modify fun f => { f with handles := standardHandles }
          read fuel .inBlock
      dropEnds fuel
      expect .textEnd
      return some n

/-- The one document that tokens make up; none if there is nothing but
the end of the text. -/
def ofTokens (ts : List (Reading Token)) : Reading (Option Node) :=
  (readDocument (2 * ts.length + 4)).run' ⟨ts, [], []⟩

end Node

end DocStore.Yaml
