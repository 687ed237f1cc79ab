import DocStore.Codec.Unicode

/-!
# Base64

Bytes as text over the URL-safe alphabet, six bits a character, without
padding. The reader is lenient: characters outside both alphabets are
skipped, and what follows a complete padding is not read; but the
characters must close their last group of four, by padding or by
themselves.
-/

namespace DocStore.Codec

/-- The character of six bits in the URL-safe alphabet. -/
def base64Char (n : Nat) : Char :=
  if n < 26 then Char.ofNat (65 + n)
  else if n < 52 then Char.ofNat (97 + (n - 26))
  else if n < 62 then Char.ofNat (48 + (n - 52))
  else if n = 62 then '-'
  else '_'

/-- The six bits of a character, in the URL-safe or the plain
alphabet. -/
def base64Value? (c : Char) : Option Nat :=
  if 'A' ≤ c ∧ c ≤ 'Z' then some (c.toNat - 65)
  else if 'a' ≤ c ∧ c ≤ 'z' then some (c.toNat - 97 + 26)
  else if '0' ≤ c ∧ c ≤ '9' then some (c.toNat - 48 + 52)
  else if c = '-' ∨ c = '+' then some 62
  else if c = '_' ∨ c = '/' then some 63
  else none

/-- Bytes in base64 without padding. -/
def base64Encode : Bytes → List Char
  | [] => []
  | [a] => [base64Char (a.toNat / 4), base64Char (a.toNat % 4 * 16)]
  | [a, b] =>
      [base64Char (a.toNat / 4), base64Char (a.toNat % 4 * 16 + b.toNat / 16),
        base64Char (b.toNat % 16 * 4)]
  | a :: b :: c :: rest =>
      base64Char (a.toNat / 4) :: base64Char (a.toNat % 4 * 16 + b.toNat / 16) ::
        base64Char (b.toNat % 16 * 4 + c.toNat / 64) :: base64Char (c.toNat % 64) ::
        base64Encode rest

/-- What has been read of a group of four characters: how many, and the
bits of the last one that are not yet in a byte. -/
inductive Group where
  | empty
  | one (bits : Nat)
  | two (bits : Nat)
  | three (bits : Nat)

/-- Reads base64 characters behind the part `group` of a group and
`pads` padding characters. -/
def base64DecodeFrom? (group : Group) (pads : Nat) : List Char → Option Bytes
  | [] =>
      match group with
      | .empty => some []
      | _ => none
  | '=' :: rest =>
      match group with
      | .two _ => if 1 ≤ pads then some [] else base64DecodeFrom? group (pads + 1) rest
      | .three _ => some []
      | _ => base64DecodeFrom? group pads rest
  | c :: rest =>
      match base64Value? c with
      | none => base64DecodeFrom? group pads rest
      | some v =>
          match group with
          | .empty => base64DecodeFrom? (.one v) 0 rest
          | .one bits => (base64DecodeFrom? (.two (v % 16)) 0 rest).map
              (UInt8.ofNat (bits * 4 + v / 16) :: ·)
          | .two bits => (base64DecodeFrom? (.three (v % 4)) 0 rest).map
              (UInt8.ofNat (bits * 16 + v / 4) :: ·)
          | .three bits => (base64DecodeFrom? .empty 0 rest).map (UInt8.ofNat (bits * 64 + v) :: ·)

/-- Reads base64 text. -/
def base64Decode? (cs : List Char) : Option Bytes :=
  base64DecodeFrom? .empty 0 cs

end DocStore.Codec
