import DocStore.Codec.Unicode
import DocStore.Yaml.Cursor

/-!
# Quoted scalars

Between single quotes only the quote itself has to be doubled; between
double quotes a backslash starts an escape. Line breaks inside are
folded, and the blanks around them are dropped.
-/

namespace DocStore.Yaml

/-! ## Escapes -/

/-- The character of an escape of one letter. -/
def escapes : List (Char × Char) :=
  [('0', '\x00'), ('a', '\x07'), ('b', '\x08'), ('t', '\t'), ('\t', '\t'), ('n', '\n'),
   ('v', '\x0b'), ('f', '\x0c'), ('r', '\r'), ('e', '\x1b'), (' ', ' '), ('"', '"'), ('\\', '\\'),
   ('/', '/'), ('N', '\u0085'), ('_', '\u00a0'), ('L', '\u2028'), ('P', '\u2029')]

/-- The number of hexadecimal digits of an escape by code point. -/
def escapeWidth? (c : Char) : Option Nat :=
  if c = 'x' then some 2 else if c = 'u' then some 4 else if c = 'U' then some 8 else none

/-- A code point, which may be a surrogate. -/
def codePoint (n : Nat) : Reading Nat :=
  if n < 0x110000 then .ok n
  else if n < 0x80000000 then .error .noCharacter
  else .error .noMachineWord

/-- The code point of an escape and its length, given what follows the
backslash. -/
def readEscape (cs : List Char) : Reading (Nat × Nat) :=
  match cs with
  | [] => refuse
  | c :: rest =>
      match escapes.find? (·.1 == c), escapeWidth? c with
      | some e, _ => .ok (e.2.toNat, 1)
      | none, some width =>
          let ds := rest.take width
          match if ds.length = width then hexValue? ds else none with
          | some n => (codePoint n).map fun n => (n, 1 + width)
          | none => refuse
      | none, none => refuse

/-! ## Line breaks -/

/-- The line breaks from the cursor on, with the blanks between them; no
document may end here. `fuel` bounds their number. -/
def quotedBreaks : Nat → Cursor → Reading (List Char × Cursor)
  | 0, _ => refuse
  | fuel + 1, c =>
      if c.mark?.isSome then
        refuse
      else
        let c := c.skipWhile isSpace
        match c.peek 0 with
        | some x =>
            if isBreak x then do
              let (more, c) ← quotedBreaks fuel c.next
              return (breakValue x :: more, c)
            else
              .ok ([], c)
        | none => .ok ([], c)

/-- What blanks and line breaks stand for inside quotes. -/
def quotedSpace (c : Cursor) : Reading (List Char × Cursor) :=
  let blanks := c.word isSpace
  let c := c.skip blanks.length
  match c.peek 0 with
  | none => refuse
  | some x =>
      if isBreak x then do
        let (more, c) ← quotedBreaks (c.rest.length + 1) c.next
        return (foldBreaks (breakValue x) more, c)
      else
        .ok (blanks, c)

/-! ## Scalars -/

/-- The code points up to the closing quote, and the place behind it;
`fuel` bounds their number. -/
def quotedCodes (quote : Char) : Nat → Cursor → Reading (List Nat × Cursor)
  | 0, _ => refuse
  | fuel + 1, c =>
      match c.peek 0 with
      | none => refuse
      | some x =>
          if x = quote then
            if quote = '\'' && c.peek 1 = some '\'' then do
              let (more, c) ← quotedCodes quote fuel (c.skip 2)
              return (x.toNat :: more, c)
            else
              .ok ([], c.next)
          else if x = '\\' && quote = '"' then
            let c := c.next
            match c.peek 0 with
            | some y =>
                if isBreak y then do
                  let (breaks, c) ← quotedBreaks (c.rest.length + 1) c.next
                  let (more, c) ← quotedCodes quote fuel c
                  return (breaks.map Char.toNat ++ more, c)
                else do
                  let (n, length) ← readEscape c.rest
                  let (more, c) ← quotedCodes quote fuel (c.skip length)
                  return (n :: more, c)
            | none => refuse
          else if isSpace x || isBreak x then do
            let (space, c) ← quotedSpace c
            let (more, c) ← quotedCodes quote fuel c
            return (space.map Char.toNat ++ more, c)
          else do
            let (more, c) ← quotedCodes quote fuel c.next
            return (x.toNat :: more, c)

/-- A quoted scalar, the cursor standing on the opening quote. -/
def quotedText (c : Cursor) : Reading (List Char × Cursor) :=
  match c.peek 0 with
  | none => refuse
  | some quote => do
      let (codes, rest) ← quotedCodes quote c.rest.length c.next
      return (Codec.joinSurrogates codes, rest)

end DocStore.Yaml
