/-!
# Unicode encodings

Texts as bytes: `utf8` writes a text, `decodeText?` reads one. The
encoding of a text is told by its first bytes, by a byte order mark or,
as the first two characters of a JSON text are ASCII, by where its zero
bytes stand.

A text is a sequence of Unicode scalar values. A surrogate on its own is
none: no text holds one, and where bytes or escapes stand for one, it is
read as the replacement character.
-/

namespace DocStore

/-- A sequence of bytes. -/
abbrev Bytes := List UInt8

namespace Codec

/-- The UTF-8 bytes of a code point. -/
def utf8Bytes (n : Nat) : Bytes :=
  if n < 0x80 then
    [UInt8.ofNat n]
  else if n < 0x800 then
    [UInt8.ofNat (0xC0 + n / 0x40), UInt8.ofNat (0x80 + n % 0x40)]
  else if n < 0x10000 then
    [UInt8.ofNat (0xE0 + n / 0x1000), UInt8.ofNat (0x80 + n / 0x40 % 0x40),
      UInt8.ofNat (0x80 + n % 0x40)]
  else
    [UInt8.ofNat (0xF0 + n / 0x40000), UInt8.ofNat (0x80 + n / 0x1000 % 0x40),
      UInt8.ofNat (0x80 + n / 0x40 % 0x40), UInt8.ofNat (0x80 + n % 0x40)]

/-- The UTF-8 bytes of a text. -/
def utf8 (cs : List Char) : Bytes :=
  cs.flatMap fun c => utf8Bytes c.toNat

/-- The character of a code point; a surrogate is read as the
replacement character. -/
def charOfCode (n : Nat) : Char :=
  if 0xD800 ≤ n ∧ n < 0xE000 then '\uFFFD' else Char.ofNat n

/-- A high surrogate of UTF-16. -/
def isHighSurrogate (n : Nat) : Bool :=
  0xD800 ≤ n && n < 0xDC00

/-- A low surrogate of UTF-16. -/
def isLowSurrogate (n : Nat) : Bool :=
  0xDC00 ≤ n && n < 0xE000

/-- The characters of code points and surrogates: a pair of surrogates
is one character, a surrogate on its own becomes the replacement
character. -/
def joinSurrogates : List Nat → List Char
  | [] => []
  | [n] => [charOfCode n]
  | high :: low :: rest =>
      if isHighSurrogate high && isLowSurrogate low then
        Char.ofNat (0x10000 + (high - 0xD800) * 0x400 + (low - 0xDC00)) :: joinSurrogates rest
      else
        charOfCode high :: joinSurrogates (low :: rest)

/-- The six bits of a byte that continues a character. -/
def continuation? (b : UInt8) : Option Nat :=
  if 0x80 ≤ b ∧ b < 0xC0 then some (b.toNat - 0x80) else none

/-- Reads UTF-8; a character must have its shortest form. -/
def decodeUtf8? : Bytes → Option (List Char)
  | [] => some []
  | a :: rest =>
      if a < 0x80 then
        (decodeUtf8? rest).map (Char.ofNat a.toNat :: ·)
      else if a < 0xC0 then
        none
      else if a < 0xE0 then
        match rest with
        | b :: rest => do
            let n := (a.toNat - 0xC0) * 0x40 + (← continuation? b)
            if n < 0x80 then none else (decodeUtf8? rest).map (charOfCode n :: ·)
        | _ => none
      else if a < 0xF0 then
        match rest with
        | b :: c :: rest => do
            let n := ((a.toNat - 0xE0) * 0x40 + (← continuation? b)) * 0x40 + (← continuation? c)
            if n < 0x800 then none else (decodeUtf8? rest).map (charOfCode n :: ·)
        | _ => none
      else
        match rest with
        | b :: c :: d :: rest => do
            let n := (((a.toNat - 0xF0) * 0x40 + (← continuation? b)) * 0x40 +
              (← continuation? c)) * 0x40 + (← continuation? d)
            if n < 0x10000 ∨ 0x110000 ≤ n then none else (decodeUtf8? rest).map (charOfCode n :: ·)
        | _ => none

/-- The order of the bytes of a unit. -/
inductive ByteOrder where
  | big
  | little
deriving DecidableEq

/-- The value of two bytes. -/
def ByteOrder.pair (order : ByteOrder) (a b : UInt8) : Nat :=
  match order with
  | .big => a.toNat * 256 + b.toNat
  | .little => b.toNat * 256 + a.toNat

/-- The UTF-16 units of bytes. -/
def units16? (order : ByteOrder) : Bytes → Option (List Nat)
  | [] => some []
  | [_] => none
  | a :: b :: rest => (units16? order rest).map (order.pair a b :: ·)

/-- Reads UTF-16. -/
def decodeUtf16? (order : ByteOrder) (bytes : Bytes) : Option (List Char) :=
  (units16? order bytes).map joinSurrogates

/-- Reads UTF-32. -/
def decodeUtf32? (order : ByteOrder) : Bytes → Option (List Char)
  | [] => some []
  | a :: b :: c :: d :: rest =>
      let n :=
        match order with
        | .big => order.pair a b * 65536 + order.pair c d
        | .little => order.pair c d * 65536 + order.pair a b
      if n < 0x110000 then (decodeUtf32? order rest).map (charOfCode n :: ·) else none
  | _ => none

/-- Reads a text that has no byte order mark: the zero bytes of ASCII
characters tell UTF-16 and UTF-32 and their byte orders. -/
def decodeByZeros? (bytes : Bytes) : Option (List Char) :=
  match bytes with
  | a :: b :: c :: d :: _ =>
      if a = 0 then
        if b = 0 then decodeUtf32? .big bytes else decodeUtf16? .big bytes
      else if b = 0 then
        if c = 0 ∧ d = 0 then decodeUtf32? .little bytes else decodeUtf16? .little bytes
      else
        decodeUtf8? bytes
  | [a, b] =>
      if a = 0 then decodeUtf16? .big bytes
      else if b = 0 then decodeUtf16? .little bytes
      else decodeUtf8? bytes
  | _ => decodeUtf8? bytes

/-- Reads a text in the encoding that its first bytes tell. -/
def decodeText? (bytes : Bytes) : Option (List Char) :=
  match bytes with
  | 0x00 :: 0x00 :: 0xFE :: 0xFF :: rest => decodeUtf32? .big rest
  | 0xFF :: 0xFE :: 0x00 :: 0x00 :: rest => decodeUtf32? .little rest
  | 0xFE :: 0xFF :: rest => decodeUtf16? .big rest
  | 0xFF :: 0xFE :: rest => decodeUtf16? .little rest
  | 0xEF :: 0xBB :: 0xBF :: rest => decodeUtf8? rest
  | _ => decodeByZeros? bytes

end Codec

end DocStore
