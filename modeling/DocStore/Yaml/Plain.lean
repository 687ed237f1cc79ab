import DocStore.Yaml.Cursor

/-!
# Plain scalars

A plain scalar has no quotes. It ends before a colon that is followed by
a blank, before a comment and, in brackets, before a mark that has a
meaning there. It may go on in lines below that are indented further
than the block it belongs to; line breaks inside are folded.
-/

namespace DocStore.Yaml

/-- The marks that a colon may be followed by in brackets to end a
scalar. -/
def isFlowMark (c : Char) : Bool :=
  [',', '[', ']', '\x7b', '\x7d'].contains c

/-- The colon before this character ends a scalar. -/
def colonEnds (inFlow : Bool) (after : Option Char) : Bool :=
  endsWord after || (inFlow && after.any isFlowMark)

/-- The characters up to the next blank or the end of the scalar. -/
def plainWord (inFlow : Bool) : List Char → List Char
  | [] => []
  | c :: cs =>
      if endsWord (some c) || (c = ':' && colonEnds inFlow cs.head?) ||
          (inFlow && (isFlowMark c || c = '?')) then
        []
      else
        c :: plainWord inFlow cs

/-- The line breaks after the first one, with the blanks between them;
none if a document ends on the way. `fuel` bounds the number of
characters. -/
def plainBreaks : Nat → Cursor → Option (List Char) × Cursor
  | 0, c => (some [], c)
  | fuel + 1, c =>
      if c.mark?.isSome then
        (none, c)
      else
        let c := c.skipBlanks
        match c.peek 0 with
        | some x =>
            if isBreak x then
              let (more, c) := plainBreaks fuel c.next
              (more.map (breakValue x :: ·), c)
            else
              (some [], c)
        | none => (some [], c)

/-- What stands between two words of a scalar: nothing if the scalar
ends here. It is told whether a line has ended. -/
def plainSpace (c : Cursor) : List Char × Bool × Cursor :=
  let blanks := c.word (· = ' ')
  let c := c.skip blanks.length
  match c.peek 0 with
  | some x =>
      if isBreak x then
        let (more, c) := plainBreaks (c.rest.length + 1) c.next
        (more.elim [] (foldBreaks (breakValue x)), true, c)
      else
        (blanks, false, c)
  | none => (blanks, false, c)

/-- The words of a scalar from the cursor on, after what stands in front
of them; `lineEnded` tells whether a line has ended since the last word,
`indent` is the least column in which the scalar goes on, and `fuel`
bounds the number of words. -/
def plainWords (inFlow : Bool) (indent : Nat) (lineEnded : Bool) (space : List Char) :
    Nat → Cursor → List Char × Bool × Cursor
  | 0, c => ([], lineEnded, c)
  | fuel + 1, c =>
      if c.peek 0 = some '#' then
        ([], lineEnded, c)
      else
        match plainWord inFlow c.rest with
        | [] => ([], lineEnded, c)
        | word =>
            let (after, lineEnded, c) := plainSpace (c.skip word.length)
            if after.isEmpty || c.peek 0 = some '#' || (!inFlow && c.column < indent) then
              (space ++ word, lineEnded, c)
            else
              let (more, lineEnded, c) := plainWords inFlow indent lineEnded after fuel c
              (space ++ word ++ more, lineEnded, c)

/-- A plain scalar, and whether a line has ended behind its last
word. -/
def plainText (inFlow : Bool) (indent : Nat) (c : Cursor) : List Char × Bool × Cursor :=
  plainWords inFlow indent false [] (c.rest.length + 1) c

end DocStore.Yaml
