import DocStore.Text.Blank

/-!
# Redaction

Account keys and authorization tokens are taken out of log messages. A
secret is what follows a lead, such as `AccountKey=`; the lead stays and
the secret is replaced by a mark. The four kinds of secrets are hidden
one after the other, each from left to right and without overlap.
-/

namespace DocStore.Log

/-! ## Matching at the start of a text

A matcher gives the rest of a text behind a match at its start. -/

/-- The small letter that a letter counts as. Beside the capitals there
are four characters beyond ASCII: the long s, the Kelvin sign, the
dotless i and the dotted capital I. -/
def plainLetter (c : Char) : Char :=
  if c = 'ſ' then 's'
  else if c.toNat = 0x212A then 'k'
  else if c = 'ı' || c = 'İ' then 'i'
  else c.toLower

/-- Behind a word, which is given in small letters. -/
def afterWord : List Char → List Char → Option (List Char)
  | [], cs => some cs
  | _ :: _, [] => none
  | w :: ws, c :: cs => if plainLetter c = w then afterWord ws cs else none

/-- Behind the characters of a class, of which there is at least one. -/
def afterSome (p : Char → Bool) : List Char → Option (List Char)
  | [] => none
  | c :: cs => if p c then some (cs.dropWhile p) else none

/-- Behind one character of a class. -/
def afterOne (p : Char → Bool) : List Char → Option (List Char)
  | [] => none
  | c :: cs => if p c then some cs else none

def isQuote (c : Char) : Bool := c = '"' || c = '\''

/-- Behind a quote, if there is one. -/
def afterQuote (cs : List Char) : List Char :=
  (afterOne isQuote cs).getD cs

/-! ## The secrets -/

/-- What a kind of secret follows, and how far it goes. -/
structure Secret where
  lead : List Char → Option (List Char)
  value : List Char → Option (List Char)

namespace Secret

/-- `AccountKey=`, up to a semicolon. -/
def accountKey : Secret where
  lead := afterWord "accountkey=".toList
  value := afterSome (· != ';')

/-- `masterKey`, a colon or an equals sign, quotes and blanks around it,
up to a quote, a semicolon or a blank. -/
def masterKey : Secret where
  lead := fun cs => do
    let cs ← afterWord "masterkey".toList cs
    let cs ← afterOne (fun c => c = ':' || c = '=') ((afterQuote cs).dropWhile Text.isBlank)
    return afterQuote (cs.dropWhile Text.isBlank)
  value := afterSome fun c => !isQuote c && c != ';' && !Text.isBlank c

/-- The signature of a master token in a query string, up to an
ampersand or a blank. -/
def signature : Secret where
  lead := afterWord "type%3dmaster%26ver%3d1.0%26sig%3d".toList
  value := afterSome fun c => c != '&' && !Text.isBlank c

/-- The value of an `Authorization:` header up to a blank; the word
`Bearer` in front of a token is part of the secret. -/
def authorization : Secret where
  lead := fun cs => do afterSome Text.isBlank (← afterWord "authorization:".toList cs)
  value := fun cs =>
    let token := afterSome fun c => !Text.isBlank c
    match afterWord "bearer".toList cs >>= afterSome Text.isBlank >>= token with
    | some rest => some rest
    | none => token cs

/-- What stands in place of a secret. -/
def mark : List Char := "***REDACTED***".toList

/-- The lead of a secret at the start of a text, and what follows the
secret. -/
def split? (s : Secret) (cs : List Char) : Option (List Char × List Char) := do
  let behindLead ← s.lead cs
  let rest ← s.value behindLead
  return (cs.take (cs.length - behindLead.length), rest)

/-- Hides the secrets of one kind behind the next `skip` characters,
which are left out. -/
def hideAfter (s : Secret) : Nat → List Char → List Char
  | _, [] => []
  | skip + 1, _ :: cs => s.hideAfter skip cs
  | 0, c :: cs =>
      match s.split? (c :: cs) with
      | some (lead, rest) => lead ++ mark ++ s.hideAfter (cs.length - rest.length) cs
      | none => c :: s.hideAfter 0 cs

/-- Hides the secrets of one kind. -/
def hide (s : Secret) (cs : List Char) : List Char :=
  s.hideAfter 0 cs

/-- All kinds of secrets, in the order in which they are hidden. -/
def all : List Secret :=
  [accountKey, masterKey, signature, authorization]

end Secret

/-- Hides the secrets of a message. -/
def redact (message : String) : String :=
  String.ofList (Secret.all.foldl (fun cs s => s.hide cs) message.toList)

end DocStore.Log
