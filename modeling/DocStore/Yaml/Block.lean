import DocStore.Yaml.Cursor

/-!
# Block scalars

The lines of a block scalar are indented further than the block it
belongs to. A header tells by how much, if need be, and what becomes of
the line breaks at the end. Line breaks are kept in a literal scalar,
and folded between lines without blanks in front in a folded one.
-/

namespace DocStore.Yaml

/-- What becomes of the line breaks at the end of a block scalar. -/
inductive Chomping where
  | strip
  | clip
  | keep
deriving DecidableEq

/-- The header of a block scalar. -/
structure BlockHeader where
  chomping : Chomping
  increment : Option Nat

/-- The chomping that a character asks for. -/
def chomping? (c : Option Char) : Option Chomping :=
  if c = some '+' then some .keep else if c = some '-' then some .strip else none

/-- The increment that a character gives; it may not be zero. -/
def increment? (c : Option Char) : Option Nat :=
  (c.filter Char.isDigit).map fun d => d.toNat - '0'.toNat

/-- Reads the header of a block scalar, up to the start of the line
below. -/
def blockHeader (c : Cursor) : Reading (BlockHeader × Cursor) := do
  let (header, c) : BlockHeader × Cursor :=
    match chomping? (c.peek 0), increment? (c.peek 0) with
    | some chomping, _ =>
        match increment? (c.peek 1) with
        | some n => (⟨chomping, some n⟩, c.skip 2)
        | none => (⟨chomping, none⟩, c.skip 1)
    | none, some n =>
        match chomping? (c.peek 1) with
        | some chomping => (⟨chomping, some n⟩, c.skip 2)
        | none => (⟨.clip, some n⟩, c.skip 1)
    | none, none => (⟨.clip, none⟩, c)
  if header.increment = some 0 || !endsName (c.peek 0) then refuse
  let c := c.skipComment
  if endsLine (c.peek 0) then return (header, c.next) else refuse

/-- The empty lines from the cursor on, and the greatest column that
they reach; `fuel` bounds the number of characters. -/
def blankLines (greatest : Nat) : Nat → Cursor → List Char × Nat × Cursor
  | 0, c => ([], greatest, c)
  | fuel + 1, c =>
      let c := c.skipBlanks
      let greatest := max greatest c.column
      match c.peek 0 with
      | some x =>
          if isBreak x then
            let (more, greatest, c) := blankLines greatest fuel c.next
            (breakValue x :: more, greatest, c)
          else
            ([], greatest, c)
      | none => ([], greatest, c)

/-- The place behind blanks, as far as a column. -/
def skipIndent (indent : Nat) (c : Cursor) : Cursor :=
  c.skip (min (c.word (· = ' ')).length (indent - c.column))

/-- The line breaks from the cursor on, with the blanks of the
indentation between them; `fuel` bounds their number. -/
def blockBreaks (indent : Nat) : Nat → Cursor → List Char × Cursor
  | 0, c => ([], c)
  | fuel + 1, c =>
      let c := skipIndent indent c
      match c.peek 0 with
      | some x =>
          if isBreak x then
            let (more, c) := blockBreaks indent fuel c.next
            (breakValue x :: more, c)
          else
            ([], c)
      | none => ([], c)

/-- The lines of a block scalar from the cursor on, after the line
breaks in front of them, up to the line breaks at the end; `fuel` bounds
the number of lines. -/
def blockLines (folded : Bool) (header : BlockHeader) (indent : Nat)
    (lastBreak breaks : List Char) :
    Nat → Cursor → List Char × Cursor
  | 0, c => ([], c)
  | fuel + 1, c =>
      let tail :=
        match header.chomping with
        | .strip => []
        | .clip => lastBreak
        | .keep => lastBreak ++ breaks
      if c.column ≠ indent || (c.peek 0).isNone then
        (tail, c)
      else
        let line := c.word fun x => !isBreak x
        let closed := c.skip line.length
        let lineBreak := ((closed.peek 0).map breakValue).toList
        let (next, after) := blockBreaks indent (closed.rest.length + 1) closed.next
        let goesOn := after.column = indent && (after.peek 0).isSome
        let joint :=
          if !goesOn then []
          else if folded && lineBreak = ['\n'] && !line.head?.any isSpace &&
              !(after.peek 0).any isSpace then
            (if next.isEmpty then [' '] else [])
          else lineBreak
        let (more, c) := blockLines folded header indent lineBreak next fuel after
        (breaks ++ line ++ joint ++ more, c)

/-- A block scalar, the cursor standing on its mark; `indent` is the
least column of its lines. -/
def blockText (indent : Nat) (c : Cursor) : Reading (List Char × Cursor) := do
  let folded := c.peek 0 = some '>'
  let (header, c) ← blockHeader c.next
  let least := max indent 1
  let fuel := c.rest.length + 1
  match header.increment with
  | some n =>
      let column := least + n - 1
      let (breaks, c) := blockBreaks column fuel c
      return blockLines folded header column [] breaks fuel c
  | none =>
      let (breaks, greatest, c) := blankLines 0 fuel c
      return blockLines folded header (max least greatest) [] breaks fuel c

end DocStore.Yaml
