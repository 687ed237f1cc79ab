import DocStore.Codec.Base64
import DocStore.Codec.Sha256
import DocStore.Json.Reader
import DocStore.Json.Writer

/-!
# Continuation tokens

A token says where the next page starts, for which query text and for
which page size. Its text is base64 over a small JSON object. A text
that holds no such object is no token (`decode`).
-/

namespace DocStore

/-- Where the next page starts, and what it must be a page of. -/
structure ContinuationToken where
  offset : Int
  fingerprint : String
  pageSize : Int
deriving DecidableEq

/-- A short digest of a query text: the first sixteen hexadecimal digits
of its SHA-256. -/
def fingerprint (text : String) : String :=
  let digest := Codec.Sha256.digest (Codec.utf8 text.toList)
  String.ofList ((digest.take 8).flatMap fun b => Text.hexDigits 2 b.toNat)

namespace ContinuationToken

/-- The object inside a token. -/
def payload (t : ContinuationToken) : Json :=
  .obj [("v", .int 1), ("o", .int t.offset), ("q", .str t.fingerprint), ("s", .int t.pageSize)]

/-- The text of a token. -/
def encode (t : ContinuationToken) : String :=
  String.ofList (Codec.base64Encode (Codec.utf8 (t.payload.writeChars .compactAscii)))

/-- The version is one, as an integer, a double or a truth value. -/
def isVersionOne : Json → Bool
  | .int n => n == 1
  | .float x => x.toInt? == some 1
  | .bool b => b
  | _ => false

/-- The token that an object describes. -/
def ofPayload? (v : Json) : Option ContinuationToken := do
  let version ← v.field? "v"
  if !isVersionOne version then none
  match v.field? "o", v.field? "q", v.field? "s" with
  | some (.int offset), some (.str fingerprint), some (.int pageSize) =>
      if 0 ≤ offset then some ⟨offset, fingerprint, pageSize⟩ else none
  | _, _, _ => none

/-- A text filled up with padding characters to a multiple of four. -/
def padded (cs : List Char) : List Char :=
  cs ++ List.replicate ((4 - cs.length % 4) % 4) '='

/-- Reads a token text; none if it is empty or describes no token. -/
def decode (text : String) : Option ContinuationToken := do
  let cs := text.toList
  if cs.isEmpty || cs.any (128 ≤ ·.toNat) then none
  let bytes ← Codec.base64Decode? (padded cs)
  let chars ← Codec.decodeText? bytes
  let payload ← Json.parseChars? chars
  ofPayload? payload

end ContinuationToken

end DocStore
