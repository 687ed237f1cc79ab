import DocStore.Proofs.Query.Lexeme

/-!
# Where lexemes end

What the lexer reads at the head of a text is decided by the text up to
where the lexeme ends and by the character behind it. That character may
be replaced by a blank or a quote, or left out: these end a lexeme of
any kind. They are in no word and in no number, and make no operator
longer; a string ends with its own quote. If it starts a word, any other
start of a word will do, but for the letters that mark exponents, which
would go on with a number.

So whatever is read somewhere is read again when the text behind it
starts with such a character (`EndsLike`) or is empty
(`readAgain_of_read`); in particular, a lexeme can be set apart from
what follows (`standalone_of_read`). This holds of all spellings of a
lexeme, also of those that nobody would write, such as numbers with a
sign or an exponent and strings in either quotes.
-/

namespace DocStore

/-- The text is empty or starts with a blank. -/
def StartsBlank (after : List Char) : Prop :=
  ∀ b ∈ after.head?, Text.isBlank b = true

theorem startsBlank_nil : StartsBlank [] := by
  intro b hb
  cases hb

theorem startsBlank_cons {b : Char} (hb : Text.isBlank b = true) (rest : List Char) :
    StartsBlank (b :: rest) := by
  intro c hc
  obtain rfl := Option.some.inj hc
  exact hb

/-- A character in front of which every lexeme ends: a blank, or a
quote, which starts a string. -/
def endsAny (b : Char) : Bool :=
  Text.isBlank b || b = '"' || b = '\''

theorem endsAny_of_isBlank {b : Char} (hb : Text.isBlank b = true) : endsAny b = true := by
  rw [endsAny, hb, Bool.true_or, Bool.true_or]

namespace TokenKind

/-- A number, behind which a letter may mark an exponent. -/
def isNumber : TokenKind → Bool
  | integer _ | float _ => true
  | _ => false

/-- Behind a lexeme of the kind, the second character ends what the
first one ended: it is the same, or both start words, and the second one
does not go on with a number. -/
def Interchanges (kind : TokenKind) (a b : Char) : Prop :=
  b = a ∨ (Lexeme.startsWord a = true ∧ Lexeme.startsWord b = true ∧ Text.isDigit b = false ∧
    (kind.isNumber = true → b ≠ 'e' ∧ b ≠ 'E'))

end TokenKind

/-- The text ends a lexeme of the kind that ended in front of `after`:
it starts with a blank, a quote or a character that does as well as the
one there, or is empty. -/
def EndsLike (kind : TokenKind) (after text : List Char) : Prop :=
  ∀ b ∈ text.head?, endsAny b = true ∨ ∃ a ∈ after.head?, kind.Interchanges a b

theorem StartsBlank.endsLike {text : List Char} (h : StartsBlank text) (kind : TokenKind)
    (after : List Char) : EndsLike kind after text :=
  fun b hb => .inl (endsAny_of_isBlank (h b hb))

theorem endsLike_of_head?_eq {after text : List Char} (h : text.head? = after.head?)
    (kind : TokenKind) : EndsLike kind after text :=
  fun b hb => .inr ⟨b, h ▸ hb, .inl rfl⟩

/-- Behind what is the end of a text, only what ends every lexeme
does. -/
theorem EndsLike.endsAny {kind : TokenKind} {text : List Char} (h : EndsLike kind [] text) :
    ∀ b ∈ text.head?, endsAny b = true := by
  intro b hb
  rcases h b hb with hb | ⟨a, ha, -⟩
  · exact hb
  · cases ha

namespace Lexeme

/-- The lexer gives the lexeme back if a blank or nothing stands behind
it. -/
def Standalone (l : Lexeme) : Prop :=
  ∃ c cs, l.text = c :: cs ∧ Text.isBlank c = false ∧
    ∀ after, StartsBlank after → read c (cs ++ after) = .ok l

/-- The text starts with the lexeme, and the lexer gives the lexeme back
in front of every text that ends it likewise. -/
def ReadAgain (l : Lexeme) (c : Char) (rest : List Char) : Prop :=
  ∃ cs after, l.text = c :: cs ∧ rest = cs ++ after ∧
    ∀ text, EndsLike l.kind after text → read c (cs ++ text) = .ok l

/-! ## Blanks and quotes -/

theorem isBlank_of_isDigit {c : Char} (h : Text.isDigit c = true) : Text.isBlank c = false := by
  unfold Text.isDigit at h
  split at h
  · have hc := (isDigit_iff c).mp h
    exact isBlank_of_ascii (by omega)
  · exact inRanges_of_apart (by decide +kernel) h

theorem isBlank_of_isLetterOrNumber {c : Char} (h : Text.isLetterOrNumber c = true) :
    Text.isBlank c = false := by
  unfold Text.isLetterOrNumber at h
  split at h
  · rcases Bool.or_eq_true _ _ ▸ h with h | h
    · have hc := isAlpha_range h
      exact isBlank_of_ascii (by omega)
    · have hc := (isDigit_iff c).mp h
      exact isBlank_of_ascii (by omega)
  · rcases Bool.or_eq_true _ _ ▸ h with h | h
    · exact isBlank_of_isLetter h
    · exact inRanges_of_apart (by decide +kernel) h

theorem isBlank_of_isWordChar {c : Char} (h : isWordChar c = true) : Text.isBlank c = false := by
  simp only [isWordChar, Bool.or_eq_true, decide_eq_true_eq] at h
  rcases h with (h | rfl) | rfl
  · exact isBlank_of_isLetterOrNumber h
  · decide
  · decide

theorem isWordChar_of_startsWord {c : Char} (h : startsWord c = true) : isWordChar c = true := by
  simp only [startsWord, Bool.or_eq_true] at h
  simp only [isWordChar, Bool.or_eq_true]
  refine h.imp_left (Or.imp_left fun h => ?_)
  unfold Text.isLetter at h
  unfold Text.isLetterOrNumber
  split
  · rename_i hc
    rw [if_pos hc] at h
    rw [Char.isAlphanum, h, Bool.true_or]
  · rename_i hc
    rw [if_neg hc] at h
    rw [Text.isLetter, if_neg hc, h, Bool.true_or]

theorem endsAny_eq_false {c : Char} (hblank : Text.isBlank c = false)
    (hquote : c ≠ '"' ∧ c ≠ '\'') : endsAny c = false := by
  simp [endsAny, hblank, hquote.1, hquote.2]

theorem endsAny_of_isDigit {c : Char} (h : Text.isDigit c = true) : endsAny c = false := by
  refine endsAny_eq_false (isBlank_of_isDigit h) ⟨?_, ?_⟩ <;> rintro rfl <;>
    exact absurd h (by decide)

theorem endsAny_of_isWordChar {c : Char} (h : isWordChar c = true) : endsAny c = false := by
  refine endsAny_eq_false (isBlank_of_isWordChar h) ⟨?_, ?_⟩ <;> rintro rfl <;>
    exact absurd h (by decide)

theorem ne_of_endsAny {b c : Char} (hb : endsAny b = true) (hc : endsAny c = false) :
    b ≠ c := by
  rintro rfl
  rw [hb] at hc
  cases hc

/-- A class of characters without blanks and quotes. -/
theorem eq_false_of_endsAny {p : Char → Bool} (h : ∀ {c}, p c = true → endsAny c = false)
    {b : Char} (hb : endsAny b = true) : p b = false := by
  by_contra hp
  have hends := h (Bool.eq_true_of_not_eq_false hp)
  rw [hb] at hends
  cases hends

/-- What ends a word as the character behind it did is in no word. -/
theorem isWordChar_of_endsLike {kind : TokenKind} {rest text : List Char}
    (h : EndsLike kind (rest.dropWhile isWordChar) text) :
    ∀ b ∈ text.head?, isWordChar b = false := by
  intro b hb
  rcases h b hb with hends | ⟨a, ha, hab⟩
  · exact eq_false_of_endsAny endsAny_of_isWordChar hends
  · have hhead := List.head?_dropWhile_not isWordChar rest
    rw [Option.mem_def.mp ha] at hhead
    have ha : isWordChar a = false := by simpa using hhead
    rcases hab with rfl | ⟨hstart, -⟩
    · exact ha
    · rw [isWordChar_of_startsWord hstart] at ha
      cases ha

/-- The word at the head of a text ends where what is behind it ends it
likewise. -/
theorem takeWhile_append_of_endsLike {kind : TokenKind} {rest text : List Char}
    (h : EndsLike kind (rest.dropWhile isWordChar) text) :
    (rest.takeWhile isWordChar ++ text).takeWhile isWordChar = rest.takeWhile isWordChar :=
  takeWhile_append_of_head List.all_takeWhile (isWordChar_of_endsLike h)

/-! ## Strings -/

theorem readQuoted_cons (quote : Char) {c : Char} (hc : c ≠ '\\') (rest : List Char) :
    readQuoted quote (c :: rest) =
      if c = quote then some ([], [c])
      else (readQuoted quote rest).map fun (value, raw) => (c :: value, c :: raw) :=
  readQuoted.eq_4 quote c rest (fun h => absurd h hc) fun _ _ h => absurd h hc

/-- A string ends with its quote, and nothing behind it is looked at. -/
theorem exists_readQuoted_append {quote : Char} (hquote : quote ≠ '\\')
    {cs value raw : List Char} (h : readQuoted quote cs = some (value, raw)) :
    ∃ after, cs = raw ++ after ∧ ∀ text, readQuoted quote (raw ++ text) = some (value, raw) := by
  fun_induction readQuoted quote cs generalizing value raw with
  | case1 => cases h
  | case2 => cases h
  | case3 e rest ih =>
      obtain ⟨⟨v, r⟩, hrest, heq⟩ := Option.map_eq_some_iff.mp h
      cases heq
      obtain ⟨after, rfl, htext⟩ := ih hrest
      refine ⟨after, rfl, fun text => ?_⟩
      simp only [List.cons_append, readQuoted]
      rw [htext, Option.map_some]
  | case4 rest =>
      cases h
      refine ⟨rest, rfl, fun text => ?_⟩
      rw [List.singleton_append, readQuoted_cons quote hquote, if_pos rfl]
  | case5 c rest hlast hescape hne ih =>
      have hc : c ≠ '\\' := by
        intro hc
        cases rest with
        | nil => exact hlast hc rfl
        | cons e rest => exact hescape e rest hc rfl
      obtain ⟨⟨v, r⟩, hrest, heq⟩ := Option.map_eq_some_iff.mp h
      cases heq
      obtain ⟨after, rfl, htext⟩ := ih hrest
      refine ⟨after, rfl, fun text => ?_⟩
      rw [List.cons_append, readQuoted_cons quote hc, if_neg hne, htext, Option.map_some]

/-! ## Numbers -/

/-- Where a number ends, whatever has been read of it. -/
def endsNumber (b : Char) : Bool :=
  !Text.isDigit b && b != '.' && b != 'e' && b != 'E' && b != '+' && b != '-'

theorem endsNumber_of_endsAny {b : Char} (hb : endsAny b = true) : endsNumber b = true := by
  have hdigit : Text.isDigit b = false := eq_false_of_endsAny endsAny_of_isDigit hb
  have hne : ∀ c, endsAny c = false → b ≠ c := fun c => ne_of_endsAny hb
  simp [endsNumber, hdigit, hne '.' (by decide), hne 'e' (by decide), hne 'E' (by decide),
    hne '+' (by decide), hne '-' (by decide)]

theorem endsNumber_of_startsWord {b : Char} (hb : startsWord b = true)
    (hdigit : Text.isDigit b = false) (hmark : b ≠ 'e' ∧ b ≠ 'E') : endsNumber b = true := by
  have hpoint : b ≠ '.' := by
    rintro rfl
    exact absurd hb (by decide)
  have hsign := (startsWord_ne hb).2
  simp [endsNumber, hdigit, hpoint, hmark.1, hmark.2, hsign.1, hsign.2]

theorem numberChars_of_endsNumber {after : List Char}
    (h : ∀ b ∈ after.head?, endsNumber b = true) (point exponent digit : Bool) :
    numberChars point exponent digit after = [] := by
  cases after with
  | nil => rfl
  | cons b after =>
      have hb := h b rfl
      simp only [endsNumber, Bool.and_eq_true, Bool.not_eq_true', bne_iff_ne] at hb
      rw [numberChars_cons]
      simp [hb]

theorem not_sign_of_endsNumber {b : Char} (h : endsNumber b = true) :
    ¬ (b = '+' || b = '-') = true := by
  simp only [endsNumber, Bool.and_eq_true, bne_iff_ne] at h
  simp [h.1.2, h.2]

/-- What ends a number as another character did is that character, or
ends all numbers. -/
theorem endsNumber_of_endsLike {kind : TokenKind} (hkind : kind.isNumber = true)
    {after text : List Char} (h : EndsLike kind after text) {b : Char} (hb : b ∈ text.head?) :
    endsNumber b = true ∨ b ∈ after.head? := by
  rcases h b hb with hb | ⟨a, ha, rfl | ⟨-, hstart, hdigit, hmark⟩⟩
  · exact .inl (endsNumber_of_endsAny hb)
  · exact .inr ha
  · exact .inl (endsNumber_of_startsWord hstart hdigit (hmark hkind))

theorem numberChars_of_digit {c : Char} (hc : Text.isDigit c = true)
    (point exponent digit : Bool) (rest : List Char) :
    numberChars point exponent digit (c :: rest) = c :: numberChars point exponent true rest := by
  rw [numberChars_cons]
  exact if_pos hc

theorem numberChars_of_point {c : Char} {point exponent : Bool} (hc : ¬ Text.isDigit c = true)
    (hpoint : (c = '.' && !point && !exponent) = true) (digit : Bool) (rest : List Char) :
    numberChars point exponent digit (c :: rest) = c :: numberChars true exponent digit rest := by
  rw [numberChars_cons]
  exact (if_neg hc).trans (if_pos hpoint)

section Exponent

variable {c : Char} {point exponent digit : Bool} (hc : ¬ Text.isDigit c = true)
  (hpoint : ¬ (c = '.' && !point && !exponent) = true)
  (hmark : ((c = 'e' || c = 'E') && !exponent && digit) = true)

include hc hpoint hmark

theorem numberChars_of_mark_sign {s : Char} (hs : (s = '+' || s = '-') = true)
    (rest : List Char) :
    numberChars point exponent digit (c :: s :: rest) =
      c :: s :: numberChars point true digit rest := by
  rw [numberChars_cons]
  exact (if_neg hc).trans ((if_neg hpoint).trans ((if_pos hmark).trans (if_pos hs)))

theorem numberChars_of_mark {rest : List Char}
    (hrest : ∀ s ∈ rest.head?, ¬ (s = '+' || s = '-') = true) :
    numberChars point exponent digit (c :: rest) = c :: numberChars point true digit rest := by
  rw [numberChars_cons]
  refine (if_neg hc).trans ((if_neg hpoint).trans ((if_pos hmark).trans ?_))
  cases rest with
  | nil => rfl
  | cons s rest => exact if_neg (hrest s rfl)

end Exponent

theorem head?_numberChars (point exponent digit : Bool) (c : Char) (rest : List Char) :
    ∀ d ∈ (numberChars point exponent digit (c :: rest)).head?, d = c := by
  intro d hd
  rw [numberChars_cons] at hd
  split at hd
  · exact (Option.some.inj hd).symm
  split at hd
  · exact (Option.some.inj hd).symm
  split at hd
  · split at hd
    · split at hd
      · exact (Option.some.inj hd).symm
      · exact (Option.some.inj hd).symm
    · exact (Option.some.inj hd).symm
  · cases hd

section Ends

variable {kind : TokenKind} (hkind : kind.isNumber = true)

include hkind

/-- No number goes on where a character stands that ends it. -/
theorem numberChars_of_endsLike {point exponent digit : Bool} {c : Char}
    (hc : ¬ Text.isDigit c = true) (hpoint : ¬ (c = '.' && !point && !exponent) = true)
    (hmark : ¬ ((c = 'e' || c = 'E') && !exponent && digit) = true) {rest text : List Char}
    (h : EndsLike kind (c :: rest) text) : numberChars point exponent digit text = [] := by
  cases text with
  | nil => rfl
  | cons b text =>
      rcases endsNumber_of_endsLike hkind h rfl with hb | hb
      · have hends : ∀ d ∈ (b :: text).head?, endsNumber d = true := by
          rintro d ⟨⟩
          exact hb
        exact numberChars_of_endsNumber hends ..
      · obtain rfl := Option.some.inj hb
        rw [numberChars_cons]
        exact (if_neg hc).trans ((if_neg hpoint).trans (if_neg hmark))

/-- A number ends where what is behind it ends it likewise, also behind
the mark of an exponent, where a sign may stand but a blank may not. -/
theorem exists_numberChars_append (point exponent digit : Bool) (cs : List Char) :
    ∃ after, cs = numberChars point exponent digit cs ++ after ∧
      ∀ text, EndsLike kind after text →
        numberChars point exponent digit (numberChars point exponent digit cs ++ text) =
          numberChars point exponent digit cs := by
  fun_induction numberChars point exponent digit cs with
  | case1 point exponent digit =>
      refine ⟨[], rfl, fun text h => numberChars_of_endsNumber (fun b hb => ?_) ..⟩
      exact endsNumber_of_endsAny (h.endsAny b hb)
  | case2 point exponent digit c rest hc ih =>
      obtain ⟨after, hrest, htext⟩ := ih
      refine ⟨after, congrArg (c :: ·) hrest, fun text h => ?_⟩
      rw [List.cons_append, numberChars_of_digit hc, htext text h]
  | case3 point exponent digit c rest hc hpoint ih =>
      obtain ⟨after, hrest, htext⟩ := ih
      refine ⟨after, congrArg (c :: ·) hrest, fun text h => ?_⟩
      rw [List.cons_append, numberChars_of_point hc hpoint, htext text h]
  | case4 point exponent digit c hc hpoint hmark s rest hs ih =>
      obtain ⟨after, hrest, htext⟩ := ih
      refine ⟨after, congrArg (c :: s :: ·) hrest, fun text h => ?_⟩
      rw [List.cons_append, List.cons_append, numberChars_of_mark_sign hc hpoint hmark hs,
        htext text h]
  | case5 point exponent digit c hc hpoint hmark s rest hs ih =>
      obtain ⟨after, hrest, htext⟩ := ih
      refine ⟨after, congrArg (c :: ·) hrest, fun text h => ?_⟩
      have hhead : ∀ d ∈ (numberChars point true digit (s :: rest) ++ text).head?,
          ¬ (d = '+' || d = '-') = true := by
        intro d hd
        rw [List.head?_append, Option.mem_def, Option.or_eq_some_iff] at hd
        rcases hd with hd | ⟨hnil, hd⟩
        · rwa [head?_numberChars point true digit s rest d hd]
        rcases endsNumber_of_endsLike hkind h hd with hd | hd
        · exact not_sign_of_endsNumber hd
        · rw [List.head?_eq_none_iff.mp hnil, List.nil_append] at hrest
          rw [← hrest] at hd
          rwa [← Option.some.inj hd]
      rw [List.cons_append, numberChars_of_mark hc hpoint hmark hhead, htext text h]
  | case6 point exponent digit c hc hpoint hmark =>
      refine ⟨[], rfl, fun text h => ?_⟩
      have hends : ∀ b ∈ text.head?, endsNumber b = true :=
        fun b hb => endsNumber_of_endsAny (h.endsAny b hb)
      rw [List.cons_append, List.nil_append, numberChars_of_mark hc hpoint hmark
        fun s hs => not_sign_of_endsNumber (hends s hs), numberChars_of_endsNumber hends]
  | case7 point exponent digit c rest hc hpoint hmark =>
      exact ⟨c :: rest, rfl, fun text h => numberChars_of_endsLike hkind hc hpoint hmark h⟩

end Ends

/-- What a number is read as depends on its raw text alone. -/
theorem number_congr {cs cs' : List Char} (h : numberText cs = numberText cs') :
    number cs = number cs' := by
  unfold number
  rw [h]

theorem text_of_number {cs : List Char} {l : Lexeme} (h : number cs = .ok l) :
    l.text = numberText cs := by
  simp only [number] at h
  split at h
  · rw [← Except.ok.inj h]
  · cases h

theorem isNumber_of_number {cs : List Char} {l : Lexeme} (h : number cs = .ok l) :
    l.kind.isNumber = true := by
  simp only [number] at h
  split at h
  · rename_i kind hkind
    rw [← Except.ok.inj h]
    split at hkind
    · obtain ⟨x, -, rfl⟩ := Option.map_eq_some_iff.mp hkind
      rfl
    · obtain ⟨n, -, rfl⟩ := Option.map_eq_some_iff.mp hkind
      rfl
  · cases h

theorem startsNumber_of_digit {c : Char} (h : Text.isDigit c = true) (rest : List Char) :
    startsNumber (c :: rest) = true := by
  cases rest <;> simp [startsNumber, h]

theorem isDigit_of_startsNumber {c : Char} {rest : List Char}
    (h : startsNumber (c :: rest) = true) (hsign : ¬ (c = '+' || c = '-') = true) :
    Text.isDigit c = true := by
  cases rest with
  | nil => exact h
  | cons d rest =>
      rw [startsNumber, Bool.or_eq_true] at h
      rcases h with h | h
      · exact h
      · exact absurd (Bool.and_eq_true_iff.mp h).1 hsign

theorem digit_of_startsNumber {c : Char} {rest : List Char}
    (h : startsNumber (c :: rest) = true) (hsign : (c = '+' || c = '-') = true) :
    ∃ d ds, rest = d :: ds ∧ Text.isDigit d = true := by
  have hc : Text.isDigit c = false := by
    rw [Bool.or_eq_true, decide_eq_true_eq, decide_eq_true_eq] at hsign
    rcases hsign with rfl | rfl <;> decide
  cases rest with
  | nil =>
      rw [startsNumber, hc] at h
      cases h
  | cons d ds =>
      rw [startsNumber, hc, hsign] at h
      exact ⟨d, ds, rfl, h⟩

/-- A number that starts a text starts one in front of any text that
ends it likewise, and its raw text is the same there. -/
theorem exists_numberText {kind : TokenKind} (hkind : kind.isNumber = true) {c : Char}
    {rest : List Char} (h : startsNumber (c :: rest) = true) :
    ∃ ds after, numberText (c :: rest) = c :: ds ∧ rest = ds ++ after ∧
      ∀ text, EndsLike kind after text →
        startsNumber (c :: (ds ++ text)) = true ∧ numberText (c :: (ds ++ text)) = c :: ds := by
  by_cases hsign : (c = '+' || c = '-') = true
  · obtain ⟨d, rest, rfl, hd⟩ := digit_of_startsNumber h hsign
    obtain ⟨after, hrest, htext⟩ := exists_numberChars_append hkind false false true rest
    refine ⟨d :: numberChars false false true rest, after, ?_, congrArg (d :: ·) hrest,
      fun text hends => ⟨?_, ?_⟩⟩
    · rw [numberText, if_pos hsign, numberChars_of_digit hd]
    · rw [List.cons_append, startsNumber, hsign, hd, Bool.and_true, Bool.or_true]
    · rw [numberText, if_pos hsign, List.cons_append, numberChars_of_digit hd, htext text hends]
  · have hc := isDigit_of_startsNumber h hsign
    obtain ⟨after, hrest, htext⟩ := exists_numberChars_append hkind false false true rest
    refine ⟨numberChars false false true rest, after, ?_, hrest, fun text hends => ⟨?_, ?_⟩⟩
    · rw [numberText, if_neg hsign, numberChars_of_digit hc]
    · exact startsNumber_of_digit hc _
    · rw [numberText, if_neg hsign, numberChars_of_digit hc, htext text hends]

/-! ## Every lexeme -/

section Read

variable {c : Char} {rest : List Char} {l : Lexeme}

theorem readAgain_of_string (hquote : (c = '"' || c = '\'') = true)
    (h : string c rest = .ok l) : l.ReadAgain c rest := by
  have hescape : c ≠ '\\' := by
    rintro rfl
    exact absurd hquote (by decide)
  unfold string at h
  split at h
  · rename_i value raw hread
    obtain rfl := Except.ok.inj h
    obtain ⟨after, hrest, htext⟩ := exists_readQuoted_append hescape hread
    refine ⟨raw, after, rfl, hrest, fun text _ => ?_⟩
    rw [read, if_pos hquote, string, htext]
  · cases h

theorem readAgain_of_number (hquote : ¬ (c = '"' || c = '\'') = true)
    (hnumber : startsNumber (c :: rest) = true) (h : number (c :: rest) = .ok l) :
    l.ReadAgain c rest := by
  obtain ⟨ds, after, htext, hrest, hds⟩ := exists_numberText (isNumber_of_number h) hnumber
  refine ⟨ds, after, (text_of_number h).trans htext, hrest, fun text hends => ?_⟩
  obtain ⟨hstarts, hsame⟩ := hds text hends
  rw [read, if_neg hquote, if_pos hstarts, number_congr (hsame.trans htext.symm), h]

/-- A character that starts no number in one place and is no sign of a
number starts none anywhere. -/
theorem startsNumber_congr (hsign : c ≠ '+' ∧ c ≠ '-')
    (hnumber : ¬ startsNumber (c :: rest) = true) (after : List Char) :
    startsNumber (c :: after) = false := by
  refine startsNumber_eq_false ?_ hsign after
  by_contra hdigit
  exact hnumber (startsNumber_of_digit (Bool.eq_true_of_not_eq_false hdigit) rest)

theorem readAgain_of_word (hquote : ¬ (c = '"' || c = '\'') = true)
    (hnumber : ¬ startsNumber (c :: rest) = true) (hword : startsWord c = true) :
    (word (c :: rest)).ReadAgain c rest := by
  have hc := isWordChar_of_startsWord hword
  have htake : ∀ cs, (c :: cs).takeWhile isWordChar = c :: cs.takeWhile isWordChar :=
    fun cs => List.takeWhile_cons_of_pos hc
  refine ⟨rest.takeWhile isWordChar, rest.dropWhile isWordChar, htake rest,
    List.takeWhile_append_dropWhile.symm, fun text hends => ?_⟩
  rw [read, if_neg hquote, startsNumber_congr (startsWord_ne hword).2 hnumber,
    if_neg Bool.false_ne_true, if_pos hword, word, word, htake, htake,
    takeWhile_append_of_endsLike hends]

theorem readAgain_of_parameter (h : parameter rest = .ok l) : l.ReadAgain '@' rest := by
  unfold parameter at h
  simp only at h
  split at h
  · cases h
  · rename_i hname
    obtain rfl := Except.ok.inj h
    refine ⟨rest.takeWhile isWordChar, rest.dropWhile isWordChar, rfl,
      List.takeWhile_append_dropWhile.symm, fun text hends => ?_⟩
    rw [read, if_neg (by decide), startsNumber_eq_false (by decide) (by decide),
      if_neg Bool.false_ne_true, if_neg (by decide), if_pos rfl, parameter,
      takeWhile_append_of_endsLike hends]
    exact if_neg hname

theorem ne_of_endsLike {x : Char} (hx : endsAny x = false ∧ startsWord x = false)
    {kind : TokenKind} {after text : List Char} (hafter : ∀ tail, after = x :: tail → False)
    (h : EndsLike kind after text) : ∀ b ∈ text.head?, b ≠ x := by
  rintro b hb rfl
  rcases h b hb with hends | ⟨a, ha, rfl | ⟨-, hstart, -⟩⟩
  · rw [hx.1] at hends
    cases hends
  · obtain ⟨tail, htail⟩ := List.head?_eq_some_iff.mp ha
    exact hafter tail htail
  · rw [hx.2] at hstart
    cases hstart

/-- An operator is not made longer by what ends it likewise. -/
theorem exists_comparison?_append (h : comparison? (c :: rest) = some l) :
    ∃ ds after, l.text = c :: ds ∧ rest = ds ++ after ∧
      (c = '=' ∨ c = '!' ∨ c = '<' ∨ c = '>') ∧
      ∀ text, EndsLike l.kind after text → comparison? (c :: (ds ++ text)) = some l := by
  unfold comparison? at h
  split at h <;> cases h <;> rename_i heq <;> cases heq
  · exact ⟨[], _, rfl, rfl, by simp, fun text _ => rfl⟩
  · exact ⟨['='], _, rfl, rfl, by simp, fun text _ => rfl⟩
  · exact ⟨['='], _, rfl, rfl, by simp, fun text _ => rfl⟩
  · exact ⟨['>'], _, rfl, rfl, by simp, fun text _ => rfl⟩
  · rename_i heq hgt
    refine ⟨[], _, rfl, rfl, by simp, fun text hends => ?_⟩
    have heq := ne_of_endsLike (x := '=') (by decide) heq hends
    have hgt := ne_of_endsLike (x := '>') (by decide) hgt hends
    cases text with
    | nil => rfl
    | cons b text => simp [comparison?, heq b rfl, hgt b rfl]
  · exact ⟨['='], _, rfl, rfl, by simp, fun text _ => rfl⟩
  · rename_i heq
    refine ⟨[], _, rfl, rfl, by simp, fun text hends => ?_⟩
    have heq := ne_of_endsLike (x := '=') (by decide) heq hends
    cases text with
    | nil => rfl
    | cons b text => simp [comparison?, heq b rfl]

theorem readAgain_of_comparison (h : comparison? (c :: rest) = some l) : l.ReadAgain c rest := by
  obtain ⟨ds, after, htext, hrest, hc, hds⟩ := exists_comparison?_append h
  have hsymbol : (c ≠ '"' ∧ c ≠ '\'') ∧ Text.isDigit c = false ∧
      (c ≠ '+' ∧ c ≠ '-') ∧ startsWord c = false ∧ c ≠ '@' := by
    rcases hc with rfl | rfl | rfl | rfl <;> decide
  obtain ⟨hquote, hdigit, hsign, hword, hat⟩ := hsymbol
  refine ⟨ds, after, htext, hrest, fun text hends => ?_⟩
  rw [read_of_symbol hquote hdigit hsign hword hat, hds text hends]

theorem ofSign_of_ofChar? {s : Sign} (h : Sign.ofChar? c = some s) :
    ofSign s = ⟨.sign s, [c]⟩ := by
  unfold Sign.ofChar? at h
  split at h <;> cases h <;> rfl

theorem readAgain_of_sign {s : Sign} (h : Sign.ofChar? c = some s) (rest : List Char) :
    (ofSign s).ReadAgain c rest := by
  obtain ⟨d, ds, htext, -, hread⟩ := readable_ofSign s
  obtain ⟨rfl, rfl⟩ := List.cons_eq_cons.mp
    ((congrArg text (ofSign_of_ofChar? h)).symm.trans htext)
  exact ⟨[], rest, htext, rfl, fun text _ => hread text fun _ _ => rfl⟩

/-- **Lexemes end where they end**: what is read at the head of a text
is read again in front of every text that ends it likewise. -/
theorem readAgain_of_read (h : read c rest = .ok l) : l.ReadAgain c rest := by
  unfold read at h
  split at h
  · rename_i hquote
    exact readAgain_of_string hquote h
  rename_i hquote
  split at h
  · rename_i hnumber
    exact readAgain_of_number hquote hnumber h
  rename_i hnumber
  split at h
  · rename_i hword
    rw [← Except.ok.inj h]
    exact readAgain_of_word hquote hnumber hword
  split at h
  · rename_i hat
    rw [hat]
    exact readAgain_of_parameter h
  split at h
  · rename_i hcomparison
    rw [← Except.ok.inj h]
    exact readAgain_of_comparison hcomparison
  split at h
  · cases h
  split at h
  · rename_i hsign
    rw [← Except.ok.inj h, ← ofSign_of_ofChar? hsign]
    exact readAgain_of_sign hsign rest
  · cases h

theorem read_append_of_endsLike {cs after text : List Char} (htext : l.text = c :: cs)
    (hread : read c (cs ++ after) = .ok l) (h : EndsLike l.kind after text) :
    read c (cs ++ text) = .ok l := by
  obtain ⟨ds, after', hds, happend, hagain⟩ := readAgain_of_read hread
  obtain ⟨-, rfl⟩ := List.cons_eq_cons.mp (htext.symm.trans hds)
  obtain rfl := List.append_cancel_left happend
  exact hagain text h

/-- So it is read again in front of a blank, whatever stood behind it. -/
theorem standalone_of_read (hblank : Text.isBlank c = false) (h : read c rest = .ok l) :
    l.Standalone := by
  obtain ⟨cs, after, htext, -, hread⟩ := readAgain_of_read h
  exact ⟨c, cs, htext, hblank, fun text hends => hread text (hends.endsLike _ after)⟩

end Read

end Lexeme

end DocStore
