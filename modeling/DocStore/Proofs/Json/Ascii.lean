import DocStore.Proofs.Json.RoundTrip

/-!
# JSON texts in ASCII

A layout that escapes what lies beyond ASCII writes printable ASCII
characters alone (`isPrintable_of_mem_writeChars`): no control character
and no line break, whatever the strings and the keys hold. Doubles are
left aside, as in `Json.Readable`.
-/

namespace DocStore.Json

/-- A printable character of ASCII. -/
def IsPrintable (c : Char) : Prop :=
  0x20 ≤ c.toNat ∧ c.toNat < 0x7F

instance : DecidablePred IsPrintable :=
  fun _ => inferInstanceAs (Decidable (_ ∧ _))

theorem isPrintable_of_all {cs : List Char} (h : cs.all (decide <| IsPrintable ·) = true) :
    ∀ c ∈ cs, IsPrintable c := by
  intro c hc
  exact of_decide_eq_true (List.all_eq_true.1 h c hc)

theorem IsPrintable.isAscii {c : Char} (h : IsPrintable c) : Codec.IsAscii c :=
  ⟨by have := h.1; omega, by have := h.2; omega⟩

theorem isPrintable_digitChar : ∀ n < 16, IsPrintable (Nat.digitChar n) := by
  decide

theorem isPrintable_of_isDigit {c : Char} (h : c.isDigit = true) : IsPrintable c := by
  simp only [Char.isDigit, Bool.and_eq_true, decide_eq_true_eq] at h
  exact ⟨Nat.le_trans (by decide) h.1, Nat.lt_of_le_of_lt h.2 (by decide)⟩

theorem isPrintable_unitEscape {n : Nat} (h : n < 0x10000) :
    ∀ c ∈ unitEscape n, IsPrintable c := by
  intro c hc
  rw [unitEscape, hexDigits_four h] at hc
  simp only [List.mem_cons, List.not_mem_nil, or_false] at hc
  rcases hc with rfl | rfl | rfl | rfl | rfl | rfl
  · decide
  · decide
  · exact isPrintable_digitChar _ (by omega)
  · exact isPrintable_digitChar _ (by omega)
  · exact isPrintable_digitChar _ (by omega)
  · exact isPrintable_digitChar _ (by omega)

theorem isPrintable_writeChar (c : Char) : ∀ d ∈ writeChar true c, IsPrintable d := by
  have hmax := toNat_lt_unicode c
  intro d hd
  rcases writeChar_cases true c with
    ⟨e, -, hval, hw⟩ | ⟨hlt, hw⟩ | ⟨-, -, hc, hascii, hw⟩ | ⟨-, hle, hw⟩
  · rw [hw] at hd
    have he : IsPrintable e := by
      unfold escapeValue? at hval
      split at hval <;> first | decide | cases hval
    simp only [List.mem_cons, List.not_mem_nil, or_false] at hd
    rcases hd with rfl | rfl
    · decide
    · exact he
  · rw [hw] at hd
    exact isPrintable_unitEscape hlt d hd
  · rw [hw, List.mem_singleton] at hd
    rw [hd]
    exact ⟨hc, hascii rfl⟩
  · rw [hw] at hd
    rcases List.mem_append.mp hd with hd | hd
    · exact isPrintable_unitEscape (by omega) d hd
    · exact isPrintable_unitEscape (by omega) d hd

theorem isPrintable_writeString (s : String) : ∀ c ∈ writeString true s, IsPrintable c := by
  intro c hc
  simp only [writeString, List.cons_append, List.mem_cons, List.mem_append, List.mem_flatMap,
    List.not_mem_nil, or_false] at hc
  rcases hc with rfl | ⟨d, -, hd⟩ | rfl
  · decide
  · exact isPrintable_writeChar d c hd
  · decide

theorem isPrintable_intDigits (n : Int) : ∀ c ∈ intDigits n, IsPrintable c := by
  intro c hc
  unfold intDigits at hc
  split at hc
  · rcases List.mem_cons.mp hc with rfl | hc
    · decide
    · exact isPrintable_of_isDigit (isDigit_toDigits hc)
  · exact isPrintable_of_isDigit (isDigit_toDigits hc)

/-- The layout escapes what lies beyond ASCII and separates by printable
characters. -/
structure AsciiLayout (l : Layout) : Prop where
  ascii : l.asciiOnly = true
  comma : ∀ c ∈ l.comma, IsPrintable c
  colon : ∀ c ∈ l.colon, IsPrintable c

theorem asciiLayout_compactAscii : AsciiLayout .compactAscii :=
  ⟨rfl, isPrintable_of_all (by decide), isPrintable_of_all (by decide)⟩

theorem asciiLayout_spacedAscii : AsciiLayout .spacedAscii :=
  ⟨rfl, isPrintable_of_all (by decide), isPrintable_of_all (by decide)⟩

mutual

theorem isPrintable_of_mem_writeChars {l : Layout} (hl : AsciiLayout l) : ∀ (v : Json),
    Readable v → ∀ c ∈ v.writeChars l, IsPrintable c
  | .null, _, c, hc => by
      have h : ∀ c ∈ "null".toList, IsPrintable c := isPrintable_of_all (by decide)
      exact h c (by simpa only [writeChars] using hc)
  | .bool true, _, c, hc => by
      have h : ∀ c ∈ "true".toList, IsPrintable c := isPrintable_of_all (by decide)
      exact h c (by simpa only [writeChars] using hc)
  | .bool false, _, c, hc => by
      have h : ∀ c ∈ "false".toList, IsPrintable c := isPrintable_of_all (by decide)
      exact h c (by simpa only [writeChars] using hc)
  | .int n, _, c, hc => isPrintable_intDigits n c (by simpa only [writeChars] using hc)
  | .float _, hv, _, _ => hv.elim
  | .str s, _, c, hc => by
      rw [writeChars, hl.ascii] at hc
      exact isPrintable_writeString s c hc
  | .arr [], _, c, hc => by
      have h : ∀ c ∈ ['[', ']'], IsPrintable c := isPrintable_of_all (by decide)
      exact h c (by simpa only [writeChars] using hc)
  | .arr (v :: vs), hv, c, hc => by
      simp only [writeChars, List.cons_append, List.mem_cons, List.mem_append, List.not_mem_nil,
        or_false] at hc
      rcases hc with rfl | (hc | hc) | rfl
      · decide
      · exact isPrintable_of_mem_writeChars hl v hv.1 c hc
      · exact isPrintable_of_mem_writeElements hl vs hv.2 c hc
      · decide
  | .obj [], _, c, hc => by
      have h : ∀ c ∈ ['\x7b', '\x7d'], IsPrintable c := isPrintable_of_all (by decide)
      exact h c (by simpa only [writeChars] using hc)
  | .obj ((k, v) :: fs), hv, c, hc => by
      simp only [writeChars, hl.ascii, List.cons_append, List.mem_cons, List.mem_append,
        List.not_mem_nil, or_false] at hc
      rcases hc with rfl | (((hc | hc) | hc) | hc) | rfl
      · decide
      · exact isPrintable_writeString k c hc
      · exact hl.colon c hc
      · exact isPrintable_of_mem_writeChars hl v hv.2.1 c hc
      · exact isPrintable_of_mem_writeFields hl fs hv.2.2 c hc
      · decide

theorem isPrintable_of_mem_writeElements {l : Layout} (hl : AsciiLayout l) : ∀ (vs : List Json),
    ReadableElements vs → ∀ c ∈ writeElements l vs, IsPrintable c
  | [], _, c, hc => by simp [writeElements] at hc
  | v :: vs, hv, c, hc => by
      simp only [writeElements, List.mem_append] at hc
      rcases hc with (hc | hc) | hc
      · exact hl.comma c hc
      · exact isPrintable_of_mem_writeChars hl v hv.1 c hc
      · exact isPrintable_of_mem_writeElements hl vs hv.2 c hc

theorem isPrintable_of_mem_writeFields {l : Layout} (hl : AsciiLayout l) :
    ∀ (fs : List (String × Json)), ReadableFields fs → ∀ c ∈ writeFields l fs, IsPrintable c
  | [], _, c, hc => by simp [writeFields] at hc
  | (k, v) :: fs, hv, c, hc => by
      simp only [writeFields, hl.ascii, List.mem_append] at hc
      rcases hc with (((hc | hc) | hc) | hc) | hc
      · exact hl.comma c hc
      · exact isPrintable_writeString k c hc
      · exact hl.colon c hc
      · exact isPrintable_of_mem_writeChars hl v hv.1 c hc
      · exact isPrintable_of_mem_writeFields hl fs hv.2 c hc

end

end DocStore.Json
