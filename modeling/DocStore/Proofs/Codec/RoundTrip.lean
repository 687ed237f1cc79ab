import DocStore.Codec.Base64

/-!
# Codecs read what they write

Base64 over any bytes and UTF-8 over ASCII texts, each read back by its
own reader.

- `base64DecodeFrom?_encode`: from the start of a group, the characters
  of `base64Encode` with as many padding characters as a reader adds
  give the bytes back. Padding depends on the length of the text alone
  (`padding`), so the statement has one case per length of the last
  group.
- `decodeText?_utf8_of_ascii`: a text of ASCII characters is read back
  from its UTF-8 bytes. The encoding is guessed from the first four
  bytes, hence the hypothesis on them.
-/

namespace DocStore.Codec

/-! ## Base64 characters -/

theorem base64Value?_base64Char :
    ∀ n < 64, base64Value? (base64Char n) = some n := by
  decide

theorem base64Char_ne_pad : ∀ n < 64, base64Char n ≠ '=' := by
  decide

theorem base64Char_ascii : ∀ n < 64, (base64Char n).toNat < 128 := by
  decide

/-- Letters, digits, the hyphen and the underscore. -/
def IsUrlSafe (c : Char) : Prop :=
  ('A' ≤ c ∧ c ≤ 'Z') ∨ ('a' ≤ c ∧ c ≤ 'z') ∨ ('0' ≤ c ∧ c ≤ '9') ∨ c = '-' ∨ c = '_'

instance (c : Char) : Decidable (IsUrlSafe c) :=
  inferInstanceAs (Decidable (_ ∨ _))

theorem isUrlSafe_base64Char : ∀ n < 64, IsUrlSafe (base64Char n) := by
  decide

/-- Every character of an encoding writes six bits. -/
theorem mem_base64Encode {bytes : Bytes} {c : Char}
    (h : c ∈ base64Encode bytes) : ∃ n < 64, c = base64Char n := by
  fun_induction base64Encode bytes with
  | case1 => simp at h
  | case2 a =>
      have ha := a.toNat_lt
      simp only [List.mem_cons, List.not_mem_nil, or_false] at h
      rcases h with rfl | rfl
      · exact ⟨_, by omega, rfl⟩
      · exact ⟨_, by omega, rfl⟩
  | case3 a b =>
      have ha := a.toNat_lt
      have hb := b.toNat_lt
      simp only [List.mem_cons, List.not_mem_nil, or_false] at h
      rcases h with rfl | rfl | rfl
      · exact ⟨_, by omega, rfl⟩
      · exact ⟨_, by omega, rfl⟩
      · exact ⟨_, by omega, rfl⟩
  | case4 a b c' rest ih =>
      have ha := a.toNat_lt
      have hb := b.toNat_lt
      have hc := c'.toNat_lt
      simp only [List.mem_cons] at h
      rcases h with rfl | rfl | rfl | rfl | h
      · exact ⟨_, by omega, rfl⟩
      · exact ⟨_, by omega, rfl⟩
      · exact ⟨_, by omega, rfl⟩
      · exact ⟨_, by omega, rfl⟩
      · exact ih h

/-! ## One character, by what the group holds -/

section Step

variable {n : Nat} (hn : n < 64) (pads : Nat) (rest : List Char)

include hn

theorem base64DecodeFrom?_empty :
    base64DecodeFrom? .empty pads (base64Char n :: rest) =
      base64DecodeFrom? (.one n) 0 rest := by
  simp [base64DecodeFrom?, base64Char_ne_pad n hn, base64Value?_base64Char n hn]

theorem base64DecodeFrom?_one (bits : Nat) :
    base64DecodeFrom? (.one bits) pads (base64Char n :: rest) =
      (base64DecodeFrom? (.two (n % 16)) 0 rest).map
        (UInt8.ofNat (bits * 4 + n / 16) :: ·) := by
  simp [base64DecodeFrom?, base64Char_ne_pad n hn, base64Value?_base64Char n hn]

theorem base64DecodeFrom?_two (bits : Nat) :
    base64DecodeFrom? (.two bits) pads (base64Char n :: rest) =
      (base64DecodeFrom? (.three (n % 4)) 0 rest).map
        (UInt8.ofNat (bits * 16 + n / 4) :: ·) := by
  simp [base64DecodeFrom?, base64Char_ne_pad n hn, base64Value?_base64Char n hn]

theorem base64DecodeFrom?_three (bits : Nat) :
    base64DecodeFrom? (.three bits) pads (base64Char n :: rest) =
      (base64DecodeFrom? .empty 0 rest).map (UInt8.ofNat (bits * 64 + n) :: ·) := by
  simp [base64DecodeFrom?, base64Char_ne_pad n hn, base64Value?_base64Char n hn]

end Step

/-! ## Base64 texts -/

/-- The padding characters that fill a text up to a multiple of four. -/
def padding (length : Nat) : List Char :=
  List.replicate ((4 - length % 4) % 4) '='

theorem padding_add_four (length : Nat) : padding (length + 4) = padding length := by
  simp [padding]

theorem ofNat_eq_of_toNat {a : UInt8} {n : Nat} (h : n = a.toNat) :
    UInt8.ofNat n = a := by
  rw [h]
  exact UInt8.ofNat_toNat

/-- Reading an encoding, filled up with padding, gives the bytes back. -/
theorem base64DecodeFrom?_encode (bytes : Bytes) (pads : Nat) :
    base64DecodeFrom? .empty pads
      (base64Encode bytes ++ padding (base64Encode bytes).length) = some bytes := by
  fun_induction base64Encode bytes generalizing pads with
  | case1 => rfl
  | case2 a =>
      have ha := a.toNat_lt
      have h1 : UInt8.ofNat (a.toNat / 4 * 4 + a.toNat % 4 * 16 / 16) = a :=
        ofNat_eq_of_toNat (by omega)
      simp only [List.cons_append, List.nil_append]
      rw [base64DecodeFrom?_empty (by omega), base64DecodeFrom?_one (by omega), h1]
      rfl
  | case3 a b =>
      have ha := a.toNat_lt
      have hb := b.toNat_lt
      have h1 : UInt8.ofNat (a.toNat / 4 * 4 + (a.toNat % 4 * 16 + b.toNat / 16) / 16) = a :=
        ofNat_eq_of_toNat (by omega)
      have h2 : UInt8.ofNat
          ((a.toNat % 4 * 16 + b.toNat / 16) % 16 * 16 + b.toNat % 16 * 4 / 4) = b :=
        ofNat_eq_of_toNat (by omega)
      simp only [List.cons_append, List.nil_append]
      rw [base64DecodeFrom?_empty (by omega), base64DecodeFrom?_one (by omega),
        base64DecodeFrom?_two (by omega), h1, h2]
      rfl
  | case4 a b c rest ih =>
      have ha := a.toNat_lt
      have hb := b.toNat_lt
      have hc := c.toNat_lt
      have h1 : UInt8.ofNat (a.toNat / 4 * 4 + (a.toNat % 4 * 16 + b.toNat / 16) / 16) = a :=
        ofNat_eq_of_toNat (by omega)
      have h2 : UInt8.ofNat ((a.toNat % 4 * 16 + b.toNat / 16) % 16 * 16 +
          (b.toNat % 16 * 4 + c.toNat / 64) / 4) = b :=
        ofNat_eq_of_toNat (by omega)
      have h3 : UInt8.ofNat
          ((b.toNat % 16 * 4 + c.toNat / 64) % 4 * 64 + c.toNat % 64) = c :=
        ofNat_eq_of_toNat (by omega)
      simp only [List.cons_append, List.length_cons, padding_add_four]
      rw [base64DecodeFrom?_empty (by omega), base64DecodeFrom?_one (by omega),
        base64DecodeFrom?_two (by omega), base64DecodeFrom?_three (by omega), h1, h2, h3, ih 0]
      rfl

/-- What fills an encoding up to a multiple of four is what a reader of
the whole text expects. -/
theorem base64Decode?_encode (bytes : Bytes) :
    base64Decode? (base64Encode bytes ++ padding (base64Encode bytes).length) = some bytes :=
  base64DecodeFrom?_encode bytes 0

/-! ## UTF-8 over ASCII -/

/-- A character of ASCII other than NUL. -/
def IsAscii (c : Char) : Prop :=
  0 < c.toNat ∧ c.toNat < 128

theorem utf8_cons_of_ascii {c : Char} (h : IsAscii c) (cs : List Char) :
    utf8 (c :: cs) = UInt8.ofNat c.toNat :: utf8 cs := by
  have hc : c.toNat < 0x80 := h.2
  simp [utf8, utf8Bytes, hc]

theorem toNat_ofNat_of_ascii {c : Char} (h : IsAscii c) :
    (UInt8.ofNat c.toNat).toNat = c.toNat := by
  have hc : c.toNat < 256 := Nat.lt_trans h.2 (by omega)
  simp [Nat.mod_eq_of_lt hc]

theorem decodeUtf8?_utf8_of_ascii {cs : List Char} (h : ∀ c ∈ cs, IsAscii c) :
    decodeUtf8? (utf8 cs) = some cs := by
  induction cs with
  | nil => rfl
  | cons c cs ih =>
      have hc : IsAscii c := h c (List.mem_cons_self ..)
      have hlt : UInt8.ofNat c.toNat < 0x80 := by
        rw [UInt8.lt_iff_toNat_lt, toNat_ofNat_of_ascii hc]
        exact hc.2
      rw [utf8_cons_of_ascii hc, decodeUtf8?.eq_def]
      simp only [hlt, if_true, ih fun d hd => h d (List.mem_cons_of_mem _ hd),
        toNat_ofNat_of_ascii hc, Char.ofNat_toNat, Option.map_some]

/-- The byte of an ASCII character is neither zero nor part of a byte
order mark. -/
theorem byte_of_ascii {c : Char} (h : IsAscii c) :
    UInt8.ofNat c.toNat ≠ 0 ∧ UInt8.ofNat c.toNat ≠ 0xFF ∧ UInt8.ofNat c.toNat ≠ 0xFE
      ∧ UInt8.ofNat c.toNat ≠ 0xEF := by
  have hc := toNat_ofNat_of_ascii h
  have h0 := h.1
  have h1 := h.2
  refine ⟨?_, ?_, ?_, ?_⟩ <;> intro heq <;> rw [heq] at hc <;> simp at hc <;> omega

theorem decodeByZeros?_utf8_of_ascii {cs : List Char} (h : ∀ c ∈ cs, IsAscii c) :
    decodeByZeros? (utf8 cs) = decodeUtf8? (utf8 cs) := by
  have hz : ∀ b ∈ utf8 cs, b ≠ 0 := by
    intro b hb
    obtain ⟨c, hc, hbc⟩ := List.mem_flatMap.mp hb
    have hlt : c.toNat < 0x80 := (h c hc).2
    simp only [utf8Bytes, hlt, if_true, List.mem_singleton] at hbc
    rw [hbc]
    exact (byte_of_ascii (h c hc)).1
  unfold decodeByZeros?
  split
  · rename_i a b c d rest heq
    rw [heq] at hz
    rw [if_neg (hz a (by simp)), if_neg (hz b (by simp)), heq]
  · rename_i a b heq
    rw [heq] at hz
    rw [if_neg (hz a (by simp)), if_neg (hz b (by simp)), heq]
  · rfl

/-- A text of ASCII characters is read back from its bytes: no byte
order mark and no zero byte leads the reader to another encoding. -/
theorem decodeText?_utf8_of_ascii {cs : List Char} (h : ∀ c ∈ cs, IsAscii c) :
    decodeText? (utf8 cs) = some cs := by
  have hdec : decodeByZeros? (utf8 cs) = some cs := by
    rw [decodeByZeros?_utf8_of_ascii h, decodeUtf8?_utf8_of_ascii h]
  cases cs with
  | nil => rfl
  | cons c cs =>
      obtain ⟨h0, hff, hfe, hef⟩ := byte_of_ascii (h c (List.mem_cons_self ..))
      rw [utf8_cons_of_ascii (h c (List.mem_cons_self ..))] at hdec ⊢
      unfold decodeText?
      split
      · rename_i heq
        exact absurd (List.cons.inj heq).1 h0
      · rename_i heq
        exact absurd (List.cons.inj heq).1 hff
      · rename_i heq
        exact absurd (List.cons.inj heq).1 hfe
      · rename_i heq
        exact absurd (List.cons.inj heq).1 hff
      · rename_i heq
        exact absurd (List.cons.inj heq).1 hef
      · exact hdec

end DocStore.Codec
