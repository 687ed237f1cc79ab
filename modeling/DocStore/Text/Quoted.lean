import DocStore.Text.Printable

/-!
# Quoted text

A text in quotes, so that messages show exactly which characters it
holds. It stands between single quotes, or between double quotes if it
holds single quotes only; the quote and the backslash are escaped, and
so is every character that is not printable, by its code point.
-/

namespace DocStore.Text

/-- The lower case hexadecimal digits of a number, filled up with zeros
to the given width. -/
def hexDigits (width n : Nat) : List Char :=
  let ds := Nat.toDigits 16 n
  List.replicate (width - ds.length) '0' ++ ds

/-- The quote around a text. -/
def quoteFor (cs : List Char) : Char :=
  if cs.contains '\'' && !cs.contains '"' then '"' else '\''

/-- A character between the given quotes. -/
def quotedChar (quote c : Char) : List Char :=
  if c = quote || c = '\\' then
    ['\\', c]
  else if c = '\n' then
    ['\\', 'n']
  else if c = '\r' then
    ['\\', 'r']
  else if c = '\t' then
    ['\\', 't']
  else if isPrintable c then
    [c]
  else if c.toNat < 0x100 then
    '\\' :: 'x' :: hexDigits 2 c.toNat
  else if c.toNat < 0x10000 then
    '\\' :: 'u' :: hexDigits 4 c.toNat
  else
    '\\' :: 'U' :: hexDigits 8 c.toNat

/-- A text in quotes. -/
def quoted (cs : List Char) : List Char :=
  let quote := quoteFor cs
  quote :: cs.flatMap (quotedChar quote) ++ [quote]

end DocStore.Text

namespace String

/-- The text in quotes, with every character that is not printable
escaped. -/
def inQuotes (s : String) : String :=
  ofList (DocStore.Text.quoted s.toList)

end String
