import DocStore.Proofs.Json.Ascii
import DocStore.Query.Continuation

/-!
# Continuation tokens survive encoding

`decode_encode_of_readable`: a token whose offset is a count and whose
integers a reader takes is decoded from its own text. Three readers
undo three writers, JSON (`parseChars_writeChars`), UTF-8
(`decodeText?_utf8_of_ascii`) and base64 (`base64Decode?_encode`), and
the padding that the token text leaves out is recomputed from its
length. The fingerprint may hold any characters, since JSON escapes
what is not ASCII, and the text of a token can stand in a URL as it is
(`decode_encode`).
-/

namespace DocStore.ContinuationToken

/-- The token can be read: its offset is a count, and its integers have
no more digits than a reader takes. -/
structure Readable (t : ContinuationToken) : Prop where
  offset_nonneg : 0 ≤ t.offset
  offset : Json.IntReadable t.offset
  pageSize : Json.IntReadable t.pageSize

theorem payload_readable {t : ContinuationToken} (h : t.Readable) : t.payload.Readable := by
  refine ⟨?_, ?_, h.offset, trivial, h.pageSize, trivial⟩
  · simp [Table.keys]
  · exact Json.intReadable_of_lt (by
      show 1 < 10 ^ Text.maxIntDigits
      exact Nat.one_lt_pow (by decide) (by decide))

/-- The object inside a token describes it. -/
theorem ofPayload?_payload {t : ContinuationToken} (h : 0 ≤ t.offset) :
    ofPayload? t.payload = some t := by
  simp [ofPayload?, payload, Json.field?, Table.get?, isVersionOne, h]

/-- The text of a token is not empty and holds ASCII characters alone. -/
theorem encode_toList_ascii (t : ContinuationToken) :
    ∀ c ∈ t.encode.toList, c.toNat < 128 := by
  intro c hc
  rw [encode, String.toList_ofList] at hc
  obtain ⟨n, hn, rfl⟩ := Codec.mem_base64Encode hc
  exact Codec.base64Char_ascii n hn

theorem encode_ne_nil {t : ContinuationToken} (h : t.Readable) : t.encode.toList ≠ [] := by
  obtain ⟨c, cs, hw, -⟩ := Json.writeChars_head .compactAscii (payload_readable h)
  have hascii := Json.isPrintable_of_mem_writeChars Json.asciiLayout_compactAscii _
    (payload_readable h)
  rw [encode, String.toList_ofList, hw,
    Codec.utf8_cons_of_ascii (hascii c (by rw [hw]; exact List.mem_cons_self ..)).isAscii]
  cases Codec.utf8 cs with
  | nil => simp [Codec.base64Encode]
  | cons b bs =>
      cases bs <;> simp [Codec.base64Encode]

/-- Decoding the text of a token gives the token back. -/
theorem decode_encode_of_readable {t : ContinuationToken} (h : t.Readable) :
    decode t.encode = some t := by
  have hread := payload_readable h
  have hascii : ∀ c ∈ t.payload.writeChars .compactAscii, Codec.IsAscii c :=
    fun c hc =>
      (Json.isPrintable_of_mem_writeChars Json.asciiLayout_compactAscii _ hread c hc).isAscii
  have hne : t.encode.toList.isEmpty = false := by
    simpa using encode_ne_nil h
  have hany : t.encode.toList.any (128 ≤ ·.toNat) = false := by
    simp only [List.any_eq_false, decide_eq_true_eq, Nat.not_le]
    exact encode_toList_ascii t
  have hbytes : Codec.base64Decode? (padded t.encode.toList) =
      some (Codec.utf8 (t.payload.writeChars .compactAscii)) := by
    rw [encode, String.toList_ofList]
    exact Codec.base64Decode?_encode _
  have hparse : Json.parseChars? (t.payload.writeChars .compactAscii) = some t.payload := by
    rw [Json.parseChars?, Json.parseChars_writeChars Json.spacesOnly_compactAscii hread]
    rfl
  simp only [decode, hne, hany, hbytes, Bool.or_self, Bool.false_eq_true, if_false,
    Codec.decodeText?_utf8_of_ascii hascii, hparse, ofPayload?_payload h.offset_nonneg,
    Option.bind_eq_bind, Option.bind_some]

/-- **Continuation tokens survive encoding**, in a text that can stand in
a URL. -/
theorem decode_encode (t : ContinuationToken) (hcount : 0 ≤ t.offset)
    (hoffset : t.offset.natAbs < 10 ^ Text.maxIntDigits)
    (hsize : t.pageSize.natAbs < 10 ^ Text.maxIntDigits) :
    decode t.encode = some t ∧ ∀ c ∈ t.encode.toList, Codec.IsUrlSafe c := by
  have hreadable : t.Readable :=
    ⟨hcount, Json.intReadable_of_lt hoffset, Json.intReadable_of_lt hsize⟩
  refine ⟨decode_encode_of_readable hreadable, fun c hc => ?_⟩
  rw [encode, String.toList_ofList] at hc
  obtain ⟨n, hn, rfl⟩ := Codec.mem_base64Encode hc
  exact Codec.isUrlSafe_base64Char n hn

/-- Page sizes may be negative, and fingerprints any texts. -/
theorem decode_encode_negative :
    decode (encode ⟨7, "é\"\\😀", -3⟩) = some ⟨7, "é\"\\😀", -3⟩ ∧
      ∀ c ∈ (encode ⟨7, "é\"\\😀", -3⟩).toList, Codec.IsUrlSafe c := by
  have hpow : 10 ^ 1 ≤ 10 ^ Text.maxIntDigits := Nat.pow_le_pow_right (by omega) (by decide)
  refine decode_encode ⟨7, "é\"\\😀", -3⟩ (by decide) ?_ ?_
  · show 7 < 10 ^ Text.maxIntDigits
    omega
  · show 3 < 10 ^ Text.maxIntDigits
    omega

end DocStore.ContinuationToken
