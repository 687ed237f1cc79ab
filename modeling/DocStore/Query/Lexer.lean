import DocStore.Query.ParseError
import DocStore.Text.Case
import DocStore.Text.Letter
import DocStore.Text.Numeral

/-!
# Dividing a query text into tokens

A lexeme is read off the head of the text without regard to where it
stands (`Lexeme.read`), so the same characters give the same token in
every place. `scan` walks the text once: it passes over blanks and over
the characters of lexemes already read, and keeps count of the position.
Words are read as long as possible and reserved whatever their case; a
backslash in a string takes the next character out of its role.
-/

namespace DocStore

/-- A token kind with the raw text it was read from. -/
structure Lexeme where
  kind : TokenKind
  text : List Char

namespace Lexeme

/-! ## Strings -/

/-- The character that a letter stands for after a backslash; any other
stands for itself. -/
def unescape : Char → Char
  | 'n' => '\n'
  | 'r' => '\r'
  | 't' => '\t'
  | 'b' => '\x08'
  | 'f' => '\x0c'
  | c => c

/-- The value and the raw text of a string behind its opening quote, the
closing quote included in the raw text. -/
def readQuoted (quote : Char) : List Char → Option (List Char × List Char)
  | [] => none
  | ['\\'] => none
  | '\\' :: e :: rest =>
      (readQuoted quote rest).map fun (value, raw) => (unescape e :: value, '\\' :: e :: raw)
  | c :: rest =>
      if c = quote then
        some ([], [c])
      else
        (readQuoted quote rest).map fun (value, raw) => (c :: value, c :: raw)

def string (quote : Char) (rest : List Char) : Except ParseCause Lexeme :=
  match readQuoted quote rest with
  | some (value, raw) => .ok ⟨.string (String.ofList value), quote :: raw⟩
  | none => .error (.unterminatedString quote)

/-! ## Numbers -/

/-- The further characters of a number: digits, one point before any
exponent, one exponent after a digit with a sign behind its mark. The
flags say what has been read. -/
def numberChars (point exponent digit : Bool) : List Char → List Char
  | [] => []
  | c :: rest =>
      if Text.isDigit c then
        c :: numberChars point exponent true rest
      else if c = '.' && !point && !exponent then
        c :: numberChars true exponent digit rest
      else if (c = 'e' || c = 'E') && !exponent && digit then
        match rest with
        | s :: rest' =>
            if s = '+' || s = '-' then
              c :: s :: numberChars point true digit rest'
            else
              c :: numberChars point true digit (s :: rest')
        | [] => [c]
      else
        []

/-- The raw text of a number, which starts with a digit or with a sign
before one. -/
def numberText : List Char → List Char
  | c :: rest =>
      if c = '+' || c = '-' then
        c :: numberChars false false false rest
      else
        numberChars false false false (c :: rest)
  | [] => []

/-- A number is a double if it has a point or an exponent, else an
integer. -/
def number (cs : List Char) : Except ParseCause Lexeme :=
  let text := numberText cs
  let kind :=
    if text.any fun c => c = '.' || c = 'e' || c = 'E' then
      (Text.readDouble? text).map .float
    else
      (Text.readInt text).toOption.map .integer
  match kind with
  | some k => .ok ⟨k, text⟩
  | none => .error (.malformedNumber (String.ofList text))

/-- A number starts here: a digit, or a sign before a digit. -/
def startsNumber : List Char → Bool
  | c :: d :: _ => Text.isDigit c || ((c = '+' || c = '-') && Text.isDigit d)
  | [c] => Text.isDigit c
  | [] => false

/-! ## Words and operators -/

/-- A character inside a word. -/
def isWordChar (c : Char) : Bool :=
  Text.isLetterOrNumber c || c = '_' || c = '$'

/-- A character that starts a word. -/
def startsWord (c : Char) : Bool :=
  Text.isLetter c || c = '_' || c = '$'

/-- The kind of a word, whatever its case. -/
def wordKind (word : List Char) : TokenKind :=
  let key := String.ofList (Text.lower word)
  if key = "true" then .boolean true
  else if key = "false" then .boolean false
  else if key = "null" then .null
  else
    match Keyword.table.get? key with
    | some k => .keyword k
    | none => .identifier

def word (cs : List Char) : Lexeme :=
  let text := cs.takeWhile isWordChar
  ⟨wordKind text, text⟩

def parameter (rest : List Char) : Except ParseCause Lexeme :=
  let name := rest.takeWhile isWordChar
  if name.isEmpty then .error .missingParameterName else .ok ⟨.parameter, '@' :: name⟩

/-- A comparison operator, if the text starts with one. -/
def comparison? : List Char → Option Lexeme
  | '=' :: _ => some ⟨.comparison .eq, ['=']⟩
  | '!' :: '=' :: _ => some ⟨.comparison .ne, ['!', '=']⟩
  | '<' :: '=' :: _ => some ⟨.comparison .le, ['<', '=']⟩
  | '<' :: '>' :: _ => some ⟨.comparison .ne, ['<', '>']⟩
  | '<' :: _ => some ⟨.comparison .lt, ['<']⟩
  | '>' :: '=' :: _ => some ⟨.comparison .ge, ['>', '=']⟩
  | '>' :: _ => some ⟨.comparison .gt, ['>']⟩
  | _ => none

/-- Reads the lexeme at the head of a text that starts with `c`, which
is no blank. -/
def read (c : Char) (rest : List Char) : Except ParseCause Lexeme :=
  if c = '"' || c = '\'' then
    string c rest
  else if startsNumber (c :: rest) then
    number (c :: rest)
  else if startsWord c then
    .ok (word (c :: rest))
  else if c = '@' then
    parameter rest
  else
    match comparison? (c :: rest) with
    | some l => .ok l
    | none =>
        if c = '!' then
          .error .loneExclamation
        else
          match Sign.ofChar? c with
          | some s => .ok ⟨.sign s, [c]⟩
          | none => .error (.unexpectedChar c)

/-- The raw text that an error points at. -/
def culprit (cause : ParseCause) (cs : List Char) : List Char :=
  match cause with
  | .unterminatedString _ => cs
  | .malformedNumber text => text.toList
  | _ => cs.take 1

end Lexeme

/-! ## Texts -/

/-- The tokens of a text and the position behind it. -/
structure TokenList where
  tokens : List Token
  stop : Position
deriving DecidableEq

namespace TokenList

/-- Puts a token in front. -/
def cons (t : Token) (ts : TokenList) : TokenList :=
  ⟨t :: ts.tokens, ts.stop⟩

/-- The tokens from a position on, `skip` characters of the text
belonging to the lexeme before. -/
def scan (p : Position) (skip : Nat) : List Char → Except ParseError TokenList
  | [] => .ok ⟨[], p⟩
  | c :: rest =>
      match skip with
      | skip + 1 => scan (p.next c) skip rest
      | 0 =>
          if Text.isBlank c then
            scan (p.next c) 0 rest
          else
            match Lexeme.read c rest with
            | .error cause =>
                .error ⟨cause, p, some (String.ofList (Lexeme.culprit cause (c :: rest)))⟩
            | .ok l =>
                (scan (p.next c) (l.text.length - 1) rest).map
                  (cons ⟨l.kind, p, String.ofList l.text⟩)

/-- Divides a query text into tokens. -/
def ofText (text : String) : Except ParseError TokenList :=
  scan .start 0 text.toList

end TokenList

end DocStore
