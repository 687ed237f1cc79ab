import DocStore.Proofs.Json.RoundTrip
import DocStore.Query.Lexer

/-!
# Lexemes in front of other text

What the lexer reads at the head of a text depends on the text behind
it. A lexeme is `Readable` if it is read back whatever follows, as long
as what follows does not continue it (`Closes`): words, parameters,
strings, integers, comparison operators and signs are.

- A word is known by what the lexer makes of it when it stands alone
  (`IsWord`); that covers every script, and the reserved words.
- A string is written between single quotes, with a backslash before
  each quote and each backslash of its value.
- An integer is written in decimal digits. One of more than
  `Text.maxIntDigits` digits is no lexeme: the lexer refuses it
  (`number_intDigits`).
-/

namespace DocStore.Lexeme

/-- The character may stand right behind a lexeme of the kind. -/
def mayFollow (kind : TokenKind) (c : Char) : Bool :=
  match kind with
  | .sign _ | .string _ => true
  | .integer _ => c == ' ' || c == ',' || c == ')'
  | _ => c == ' ' || c == ',' || c == ')' || c == '.' || c == '('

/-- A text that does not continue a lexeme of the kind before it. -/
def Closes (kind : TokenKind) (after : List Char) : Prop :=
  ∀ c ∈ after.head?, mayFollow kind c = true

theorem closes_nil (kind : TokenKind) : Closes kind [] := by
  simp [Closes]

theorem closes_cons {kind : TokenKind} {c : Char} (after : List Char)
    (h : mayFollow kind c = true) : Closes kind (c :: after) := by
  intro d hd
  obtain rfl : c = d := by simpa using hd
  exact h

/-- The lexer gives the lexeme back wherever it stands in a text. -/
def Readable (l : Lexeme) : Prop :=
  ∃ c cs, l.text = c :: cs ∧ Text.isBlank c = false ∧
    ∀ after, Closes l.kind after → read c (cs ++ after) = .ok l

/-! ## Signs and comparison operators -/

theorem startsNumber_eq_false {c : Char} (hd : Text.isDigit c = false)
    (hs : c ≠ '+' ∧ c ≠ '-') (rest : List Char) : startsNumber (c :: rest) = false := by
  cases rest with
  | nil => simpa [startsNumber] using hd
  | cons d rest => simp [startsNumber, hd, hs.1, hs.2]

/-- A character that starts no string, number, word or parameter. -/
theorem read_of_symbol {c : Char} (hq : c ≠ '"' ∧ c ≠ '\'') (hd : Text.isDigit c = false)
    (hs : c ≠ '+' ∧ c ≠ '-') (hw : startsWord c = false) (ha : c ≠ '@') (rest : List Char) :
    read c rest =
      match comparison? (c :: rest) with
      | some l => .ok l
      | none =>
        if c = '!' then
          .error .loneExclamation
        else
          match Sign.ofChar? c with
          | some s => .ok ⟨.sign s, [c]⟩
          | none => .error (.unexpectedChar c) := by
  rw [read, if_neg (by simp [hq.1, hq.2]), startsNumber_eq_false hd hs, if_neg (by simp),
    if_neg (by simp [hw])]
  exact if_neg ha

/-- The character that writes a sign. -/
def signChar : Sign → Char
  | .leftParen => '('
  | .rightParen => ')'
  | .comma => ','
  | .dot => '.'
  | .star => '*'

def ofSign (s : Sign) : Lexeme :=
  ⟨.sign s, [signChar s]⟩

@[simp] theorem readable_ofSign (s : Sign) : (ofSign s).Readable := by
  refine ⟨signChar s, [], rfl, by cases s <;> decide, fun after _ => ?_⟩
  cases s <;>
    exact read_of_symbol (by decide) (by decide) (by decide) (by decide) (by decide) after

def ofComparison (c : Comparison) : Lexeme :=
  ⟨.comparison c, c.symbol.toList⟩

/-- An operator is read whole: what may follow it starts no longer
operator. -/
theorem comparison?_append (c : Comparison) {after : List Char}
    (h : Closes (.comparison c) after) :
    comparison? (c.symbol.toList ++ after) = some (ofComparison c) := by
  cases after with
  | nil => cases c <;> rfl
  | cons d after =>
      have hd := h d rfl
      have hne : d ≠ '=' ∧ d ≠ '>' := by
        constructor <;> rintro rfl <;> exact absurd hd (by cases c <;> decide)
      cases c <;> simp [comparison?, Comparison.symbol, ofComparison, hne.1, hne.2]

@[simp] theorem readable_ofComparison (c : Comparison) : (ofComparison c).Readable := by
  cases hsym : c.symbol.toList with
  | nil => exact absurd hsym (by cases c <;> decide)
  | cons d ds =>
      have hd : Text.isBlank d = false ∧ (d ≠ '"' ∧ d ≠ '\'') ∧ Text.isDigit d = false ∧
          (d ≠ '+' ∧ d ≠ '-') ∧ startsWord d = false ∧ d ≠ '@' := by
        cases c <;> cases hsym <;> decide
      obtain ⟨hb, hq, hdig, hs, hw, ha⟩ := hd
      refine ⟨d, ds, hsym, hb, fun after hafter => ?_⟩
      rw [read_of_symbol hq hdig hs hw ha, ← List.cons_append, ← hsym,
        comparison?_append c hafter]

/-! ## Words -/

/-- The lexer reads the whole text as one lexeme of the kind. -/
def IsLexeme (kind : TokenKind) (s : String) : Prop :=
  ∃ c cs, s.toList = c :: cs ∧ read c cs = .ok ⟨kind, c :: cs⟩

/-- A word that the lexer reads as an identifier. -/
def IsName (s : String) : Prop :=
  IsLexeme .identifier s

/-- A word that can name a property behind a point, reserved or not. -/
def IsSegment (s : String) : Prop :=
  ∃ kind, kind.isName = true ∧ IsLexeme kind s

/-- The lexeme that a word is read as. -/
def ofWord (s : String) : Lexeme :=
  ⟨wordKind s.toList, s.toList⟩

theorem startsWord_ne {c : Char} (h : startsWord c = true) :
    (c ≠ '"' ∧ c ≠ '\'') ∧ c ≠ '+' ∧ c ≠ '-' := by
  refine ⟨⟨?_, ?_⟩, ?_, ?_⟩ <;> rintro rfl <;> exact absurd h (by decide)

/-! Only the branch for words gives a lexeme that can name a
property. -/

theorem isName_of_string {q : Char} {rest : List Char} {l : Lexeme}
    (h : string q rest = .ok l) : l.kind.isName = false := by
  unfold string at h
  split at h
  · obtain rfl := Except.ok.inj h
    rfl
  · cases h

theorem isName_of_number {cs : List Char} {l : Lexeme} (h : number cs = .ok l) :
    l.kind.isName = false := by
  simp only [number] at h
  split at h
  · rename_i kind hkind
    obtain rfl := Except.ok.inj h
    split at hkind
    · obtain ⟨x, -, rfl⟩ := Option.map_eq_some_iff.mp hkind
      rfl
    · obtain ⟨n, -, rfl⟩ := Option.map_eq_some_iff.mp hkind
      rfl
  · cases h

theorem isName_of_parameter {rest : List Char} {l : Lexeme} (h : parameter rest = .ok l) :
    l.kind.isName = false := by
  simp only [parameter] at h
  split at h
  · cases h
  · obtain rfl := Except.ok.inj h
    rfl

theorem isName_of_comparison? {cs : List Char} {l : Lexeme} (h : comparison? cs = some l) :
    l.kind.isName = false := by
  unfold comparison? at h
  split at h <;> cases h <;> rfl

theorem word_of_read {c : Char} {cs : List Char} {l : Lexeme} (h : read c cs = .ok l)
    (hl : l.kind.isName = true) :
    startsWord c = true ∧ startsNumber (c :: cs) = false ∧ word (c :: cs) = l := by
  unfold read at h
  split at h
  · exact absurd hl (by simp [isName_of_string h])
  split at h
  · exact absurd hl (by simp [isName_of_number h])
  split at h
  · rename_i hnum hword
    exact ⟨hword, by simpa using hnum, Except.ok.inj h⟩
  split at h
  · exact absurd hl (by simp [isName_of_parameter h])
  split at h
  · rename_i hcmp
    obtain rfl := Except.ok.inj h
    exact absurd hl (by simp [isName_of_comparison? hcmp])
  split at h
  · cases h
  split at h
  · obtain rfl := Except.ok.inj h
    exact absurd hl (by simp [TokenKind.isName])
  · cases h

/-- What may follow a word or a parameter is no character of
words. -/
theorem isWordChar_of_mayFollow {kind : TokenKind}
    (hk : kind.isName = true ∨ kind = .parameter) {c : Char}
    (h : mayFollow kind c = true) : isWordChar c = false := by
  have hc : c = ' ' ∨ c = ',' ∨ c = ')' ∨ c = '.' ∨ c = '(' := by
    cases kind <;> simp_all [mayFollow, TokenKind.isName, or_assoc]
  rcases hc with rfl | rfl | rfl | rfl | rfl <;> decide

/-- The word in front of a text that does not continue it. -/
theorem takeWhile_append_of_head {cs after : List Char} (hcs : cs.all isWordChar = true)
    (hafter : ∀ c ∈ after.head?, isWordChar c = false) :
    (cs ++ after).takeWhile isWordChar = cs := by
  rw [List.takeWhile_append_of_pos (List.all_eq_true.mp hcs)]
  cases after with
  | nil => simp
  | cons d after => simp [hafter d rfl]

/-- No code point lies in a range of both lists. -/
def apart (ranges others : List (Nat × Nat)) : Bool :=
  ranges.all fun r => others.all fun s => r.2 < s.1 || s.2 < r.1

theorem inRanges_of_apart {ranges others : List (Nat × Nat)} (h : apart ranges others = true)
    {n : Nat} (hn : Text.inRanges ranges n = true) : Text.inRanges others n = false := by
  rw [Text.inRanges, List.any_eq_true] at hn
  obtain ⟨r, hr, hrn⟩ := hn
  rw [Text.inRanges, List.any_eq_false]
  intro s hs
  have hrs := List.all_eq_true.mp (List.all_eq_true.mp h r hr) s hs
  simp only [Bool.and_eq_true, Bool.or_eq_true, decide_eq_true_eq] at hrn hrs ⊢
  omega

theorem isBlank_of_ascii {c : Char} (h : 32 < c.toNat ∧ c.toNat < 127) :
    Text.isBlank c = false := by
  have hascii : Text.inRanges [(33, 126)] c.toNat = true := by
    simp only [Text.inRanges, List.any_cons, List.any_nil, Bool.or_false, Bool.and_eq_true,
      decide_eq_true_eq]
    omega
  exact inRanges_of_apart (by decide) hascii

theorem isAlpha_range {c : Char} (h : c.isAlpha = true) : 65 ≤ c.toNat ∧ c.toNat ≤ 122 := by
  rcases Bool.or_eq_true c.isUpper c.isLower ▸ h with h | h
  · have h : c.val ≥ 65 ∧ c.val ≤ 90 := of_decide_eq_true h
    exact ⟨h.1, Nat.le_trans h.2 (by decide)⟩
  · have h : (decide (c.val ≥ 97) && decide (c.val ≤ 122)) = true := h
    rw [Bool.and_eq_true, decide_eq_true_eq, decide_eq_true_eq] at h
    exact ⟨Nat.le_trans (by decide) h.1, h.2⟩

theorem isBlank_of_isLetter {c : Char} (h : Text.isLetter c = true) : Text.isBlank c = false := by
  unfold Text.isLetter at h
  split at h
  · have hc := isAlpha_range h
    exact isBlank_of_ascii (by omega)
  · exact inRanges_of_apart (by decide +kernel) h

theorem isBlank_of_startsWord {c : Char} (h : startsWord c = true) : Text.isBlank c = false := by
  simp only [startsWord, Bool.or_eq_true, decide_eq_true_eq] at h
  rcases h with (h | rfl) | rfl
  · exact isBlank_of_isLetter h
  · decide
  · decide

/-- What the lexer has seen of a text that it reads as a word. -/
theorem IsLexeme.word_chars {kind : TokenKind} {s : String} (h : IsLexeme kind s)
    (hk : kind.isName = true) :
    ∃ c cs, s.toList = c :: cs ∧ startsWord c = true ∧ Text.isDigit c = false ∧
      (c :: cs).all isWordChar = true ∧ wordKind (c :: cs) = kind := by
  obtain ⟨c, cs, hs, hread⟩ := h
  obtain ⟨hstart, hnum, hword⟩ := word_of_read hread hk
  have htake : (c :: cs).takeWhile isWordChar = c :: cs := congrArg text hword
  refine ⟨c, cs, hs, hstart, ?_, ?_, ?_⟩
  · cases cs <;> simp_all [startsNumber]
  · rw [← htake]
    exact List.all_takeWhile
  · have h := congrArg Lexeme.kind hword
    simpa only [word, htake] using h

theorem kind_ofWord {kind : TokenKind} {s : String} (h : IsLexeme kind s)
    (hk : kind.isName = true) : (ofWord s).kind = kind := by
  obtain ⟨c, cs, hs, -, -, -, hkind⟩ := h.word_chars hk
  rw [ofWord, hs, hkind]

/-- A word is read wherever it stands, if no character of words
follows. -/
theorem exists_read_ofWord {kind : TokenKind} {s : String} (h : IsLexeme kind s)
    (hk : kind.isName = true) :
    ∃ c cs, s.toList = c :: cs ∧ startsWord c = true ∧
      ∀ after, (∀ b ∈ after.head?, isWordChar b = false) → read c (cs ++ after) = .ok (ofWord s) := by
  obtain ⟨c, cs, hs, hstart, hd, hall, -⟩ := h.word_chars hk
  refine ⟨c, cs, hs, hstart, fun after hafter => ?_⟩
  have hq := startsWord_ne hstart
  rw [read, if_neg (by simp [hq.1.1, hq.1.2]), startsNumber_eq_false hd hq.2, if_neg (by simp),
    if_pos hstart, ← List.cons_append, word]
  simp only [takeWhile_append_of_head hall hafter, ofWord, hs]

theorem readable_ofWord {kind : TokenKind} {s : String} (h : IsLexeme kind s)
    (hk : kind.isName = true) : (ofWord s).Readable := by
  obtain ⟨c, cs, hs, hstart, hread⟩ := exists_read_ofWord h hk
  refine ⟨c, cs, hs, isBlank_of_startsWord hstart, fun after hafter => ?_⟩
  rw [kind_ofWord h hk] at hafter
  exact hread after fun b hb => isWordChar_of_mayFollow (.inl hk) (hafter b hb)

/-- The reserved words, as they are written. -/
def ofKeyword (k : Keyword) : Lexeme :=
  ⟨.keyword k, k.name.toList⟩

@[simp] theorem readable_ofKeyword (k : Keyword) : (ofKeyword k).Readable := by
  have h : IsLexeme (.keyword k) k.name := by
    cases k <;> exact ⟨_, _, rfl, rfl⟩
  have hof : ofWord k.name = ofKeyword k := by
    rw [ofKeyword, ← kind_ofWord h rfl]
    rfl
  rw [← hof]
  exact readable_ofWord h rfl

/-! ## Parameters -/

def ofParameter (name : List Char) : Lexeme :=
  ⟨.parameter, '@' :: name⟩

theorem readable_ofParameter {name : List Char} (hne : name ≠ [])
    (h : name.all isWordChar = true) : (ofParameter name).Readable := by
  refine ⟨'@', name, rfl, by decide, fun after hafter => ?_⟩
  rw [read, if_neg (by decide), startsNumber_eq_false (by decide) (by decide), if_neg (by simp),
    if_neg (by decide), if_pos rfl, parameter]
  have htake : (name ++ after).takeWhile isWordChar = name :=
    takeWhile_append_of_head h fun b hb => isWordChar_of_mayFollow (.inr rfl) (hafter b hb)
  simp only [htake, List.isEmpty_iff, hne, if_false]
  rfl

/-! ## Strings -/

/-- A value between quotes: backslashes before such quotes and
backslashes. -/
def escapeIn (quote : Char) : List Char → List Char
  | [] => []
  | c :: cs =>
    if c = '\\' || c = quote then '\\' :: c :: escapeIn quote cs else c :: escapeIn quote cs

/-- Whatever a value holds, it ends with the quote behind it. -/
theorem readQuoted_escapeIn {quote : Char} (hquote : quote = '"' ∨ quote = '\'')
    (cs after : List Char) :
    readQuoted quote (escapeIn quote cs ++ quote :: after) =
      some (cs, escapeIn quote cs ++ [quote]) := by
  have hplain : quote ≠ '\\' ∧ unescape quote = quote := by
    rcases hquote with rfl | rfl <;> decide
  induction cs with
  | nil => simp [escapeIn, readQuoted, hplain.1]
  | cons c cs ih =>
      by_cases hc : c = '\\' ∨ c = quote
      · have hval : unescape c = c := by
          rcases hc with rfl | rfl
          · rfl
          · exact hplain.2
        have hesc : escapeIn quote (c :: cs) = '\\' :: c :: escapeIn quote cs := by
          simp [escapeIn, hc]
        simp only [hesc, List.cons_append, readQuoted, ih, Option.map_some, hval]
      · have hesc : escapeIn quote (c :: cs) = c :: escapeIn quote cs := by simp [escapeIn, hc]
        have hne : c ≠ '\\' ∧ c ≠ quote := not_or.mp hc
        simp [hesc, readQuoted, ih, hne.1, hne.2]

/-- A string in quotes. -/
def quoted (quote : Char) (s : String) : Lexeme :=
  ⟨.string s, quote :: (escapeIn quote s.toList ++ [quote])⟩

theorem read_quoted {quote : Char} (hquote : quote = '"' ∨ quote = '\'') (s : String)
    (after : List Char) :
    read quote ((escapeIn quote s.toList ++ [quote]) ++ after) = .ok (quoted quote s) := by
  rw [read, if_pos (by simpa using hquote), string, List.append_assoc]
  simp only [List.singleton_append, readQuoted_escapeIn hquote, String.ofList_toList]
  rfl

theorem readable_quoted {quote : Char} (hquote : quote = '"' ∨ quote = '\'') (s : String) :
    (quoted quote s).Readable :=
  ⟨quote, escapeIn quote s.toList ++ [quote], rfl, by rcases hquote with rfl | rfl <;> decide,
    fun after _ => read_quoted hquote s after⟩

/-- A value between single quotes: backslashes before quotes and
backslashes. -/
def escape : List Char → List Char
  | [] => []
  | c :: cs => if c = '\\' || c = '\'' then '\\' :: c :: escape cs else c :: escape cs

theorem escape_eq_escapeIn (cs : List Char) : escape cs = escapeIn '\'' cs := by
  induction cs with
  | nil => rfl
  | cons c cs ih => rw [escape, escapeIn, ih]

def ofString (s : String) : Lexeme :=
  ⟨.string s, '\'' :: (escape s.toList ++ ['\''])⟩

theorem readable_ofString (s : String) : (ofString s).Readable := by
  have hof : ofString s = quoted '\'' s := by
    rw [ofString, escape_eq_escapeIn]
    rfl
  rw [hof]
  exact readable_quoted (.inr rfl) s

/-! ## Integers -/

theorem isDigit_iff (c : Char) : c.isDigit = true ↔ 48 ≤ c.toNat ∧ c.toNat ≤ 57 := by
  simp only [Char.isDigit, Bool.and_eq_true, decide_eq_true_eq, ge_iff_le,
    UInt32.le_iff_toNat_le]
  rfl

theorem asciiNumeral_of_digits {cs : List Char} (h : ∀ c ∈ cs, c.isDigit = true ∨ c = '-') :
    Text.asciiNumeral cs = cs := by
  have hc : ∀ c ∈ cs, Text.asciiNumeralChar c = c ∧ Text.isNumeralBlank c = false := by
    intro c hmem
    have hrange : 45 ≤ c.toNat ∧ c.toNat ≤ 57 := by
      rcases h c hmem with hd | rfl
      · have := (isDigit_iff c).mp hd
        omega
      · decide
    have hspace : c ≠ ' ' := by
      rintro rfl
      exact absurd hrange (by decide)
    refine ⟨if_pos (by omega), ?_⟩
    simp only [Text.isNumeralBlank, hspace, decide_false, Bool.false_or, Bool.and_eq_false_iff,
      decide_eq_false_iff_not]
    omega
  have hmap : cs.map Text.asciiNumeralChar = cs :=
    (List.map_congr_left fun c hmem => (hc c hmem).1).trans (List.map_id' cs)
  have hdrop : ∀ ds : List Char, (∀ d ∈ ds, Text.isNumeralBlank d = false) →
      ds.dropWhile Text.isNumeralBlank = ds := by
    intro ds hds
    cases ds with
    | nil => rfl
    | cons d ds => simp [hds d (by simp)]
  rw [Text.asciiNumeral, hmap, hdrop cs fun c hmem => (hc c hmem).2]
  rw [hdrop cs.reverse fun c hmem => (hc c (by simpa using hmem)).2, List.reverse_reverse]

theorem dropUnderscores_of_digits {ds : List Char} (h : ∀ c ∈ ds, c.isDigit = true) :
    Text.dropUnderscores ds = some ds := by
  induction ds with
  | nil => rfl
  | cons d ds ih =>
      have hne : ∀ c ∈ d :: ds, c ≠ '_' := by
        rintro c hc rfl
        exact absurd (h _ hc) (by decide)
      have ih := ih fun c hc => h c (List.mem_cons_of_mem _ hc)
      cases ds with
      | nil => simp [Text.dropUnderscores, hne d (by simp)]
      | cons e ds =>
          simp [Text.dropUnderscores, hne d (by simp), hne e (by simp), ih]

theorem splitSign_intDigits (n : Int) :
    Text.splitSign (intDigits n) = (decide (n < 0), Nat.toDigits 10 n.natAbs) := by
  unfold intDigits
  split
  · rename_i hneg
    simp [Text.splitSign, hneg]
  · rename_i hpos
    cases hds : Nat.toDigits 10 n.natAbs with
    | nil => exact absurd hds Nat.toDigits_ne_nil
    | cons d ds =>
        have hd : d.isDigit = true :=
          isDigit_toDigits (n := n.natAbs) (by rw [hds]; exact List.mem_cons_self ..)
        have hne : d ≠ '-' ∧ d ≠ '+' := by
          constructor <;> rintro rfl <;> exact absurd hd (by decide)
        simp [Text.splitSign, hpos, hne.1, hne.2]

theorem mem_intDigits {n : Int} {c : Char} (h : c ∈ intDigits n) :
    c.isDigit = true ∨ c = '-' := by
  unfold intDigits at h
  split at h
  · rcases List.mem_cons.mp h with rfl | h
    · exact .inr rfl
    · exact .inl (isDigit_toDigits h)
  · exact .inl (isDigit_toDigits h)

/-- Decimal digits give their integer back unless there are too many of
them. -/
theorem readInt_intDigits (n : Int) :
    Text.readInt (intDigits n) =
      if Text.maxIntDigits < (Nat.toDigits 10 n.natAbs).length then
        .error (.tooManyDigits (Nat.toDigits 10 n.natAbs).length)
      else
        .ok n := by
  have hds : ∀ c ∈ Nat.toDigits 10 n.natAbs, c.isDigit = true := fun c => isDigit_toDigits
  have hrun : (Nat.toDigits 10 n.natAbs).takeWhile (fun c => c.isDigit || c = '_') =
      Nat.toDigits 10 n.natAbs := by
    have h : (Nat.toDigits 10 n.natAbs ++ []).takeWhile (fun c => c.isDigit || c = '_') =
        Nat.toDigits 10 n.natAbs ++ [].takeWhile (fun c => c.isDigit || c = '_') :=
      List.takeWhile_append_of_pos fun c hc => by simp [hds c hc]
    simpa using h
  simp only [Text.readInt, asciiNumeral_of_digits fun c => mem_intDigits, splitSign_intDigits,
    hrun, dropUnderscores_of_digits hds]
  split
  · rfl
  · have hne : (Nat.toDigits 10 n.natAbs).isEmpty = false := by simp
    simp only [hne, Nat.lt_irrefl, decide_false, Bool.or_self, Bool.false_eq_true, if_false,
      Nat.ofDigitChars_ten_toDigits, decide_eq_true_eq]
    split <;> congr 1 <;> omega

theorem textIsDigit_of_isDigit {c : Char} (h : c.isDigit = true) : Text.isDigit c = true := by
  have hc := (isDigit_iff c).mp h
  rw [Text.isDigit, if_pos (by omega), h]

theorem numberChars_cons (point exponent digit : Bool) (c : Char) (rest : List Char) :
    numberChars point exponent digit (c :: rest) =
      if Text.isDigit c then
        c :: numberChars point exponent true rest
      else if c = '.' && !point && !exponent then
        c :: numberChars true exponent digit rest
      else if (c = 'e' || c = 'E') && !exponent && digit then
        match rest with
        | s :: rest' =>
          if s = '+' || s = '-' then
            c :: s :: numberChars point true digit rest'
          else
            c :: numberChars point true digit (s :: rest')
        | [] => [c]
      else
        [] :=
  numberChars.eq_def point exponent digit (c :: rest)

/-- A number ends where the digits of an integer end. -/
theorem numberChars_append {n : Int} {after : List Char} (h : Closes (.integer n) after)
    {ds : List Char} (hds : ∀ c ∈ ds, c.isDigit = true) (point exponent digit : Bool) :
    numberChars point exponent digit (ds ++ after) = ds := by
  induction ds generalizing digit with
  | nil =>
      cases after with
      | nil => rfl
      | cons c after =>
          have hc : c = ' ' ∨ c = ',' ∨ c = ')' := by
            simpa [mayFollow, or_assoc] using h c rfl
          have hd : Text.isDigit c = false ∧ c ≠ '.' ∧ c ≠ 'e' ∧ c ≠ 'E' := by
            rcases hc with rfl | rfl | rfl <;> decide
          simp [numberChars_cons, hd.1, hd.2.1, hd.2.2.1, hd.2.2.2]
  | cons d ds ih =>
      have hd := textIsDigit_of_isDigit (hds d (by simp))
      rw [List.cons_append, numberChars_cons]
      simp only [hd, if_true, ih fun c hc => hds c (List.mem_cons_of_mem d hc)]

theorem numberText_intDigits (n : Int) {after : List Char} (h : Closes (.integer n) after) :
    numberText (intDigits n ++ after) = intDigits n := by
  have hds : ∀ c ∈ Nat.toDigits 10 n.natAbs, c.isDigit = true := fun c => isDigit_toDigits
  have hchars := numberChars_append h hds false false false
  unfold intDigits
  split
  · rw [List.cons_append, numberText, if_pos (by decide), hchars]
  · cases hdig : Nat.toDigits 10 n.natAbs with
    | nil => exact absurd hdig Nat.toDigits_ne_nil
    | cons d ds =>
        rw [hdig] at hds hchars
        have hd := hds d (by simp)
        have hne : d ≠ '+' ∧ d ≠ '-' := by
          constructor <;> rintro rfl <;> exact absurd hd (by decide)
        rw [List.cons_append, numberText, if_neg (by simp [hne.1, hne.2])]
        exact hchars

/-- The digits of an integer are read as a number: its lexeme, or an
error if there are too many of them. -/
theorem number_intDigits (n : Int) {after : List Char} (h : Closes (.integer n) after) :
    number (intDigits n ++ after) =
      if Text.maxIntDigits < (Nat.toDigits 10 n.natAbs).length then
        .error (.malformedNumber (intText n))
      else
        .ok ⟨.integer n, intDigits n⟩ := by
  have hplain : (intDigits n).any (fun c => c = '.' || c = 'e' || c = 'E') = false := by
    rw [List.any_eq_false]
    intro c hc
    have hc := mem_intDigits hc
    have hne : c ≠ '.' ∧ c ≠ 'e' ∧ c ≠ 'E' := by
      refine ⟨?_, ?_, ?_⟩ <;> rintro rfl <;> exact absurd hc (by decide)
    simp [hne.1, hne.2.1, hne.2.2]
  simp only [number, numberText_intDigits n h, hplain, Bool.false_eq_true, if_false,
    readInt_intDigits]
  by_cases hlen : Text.maxIntDigits < (Nat.toDigits 10 n.natAbs).length
  · simp only [if_pos hlen]
    rfl
  · simp only [if_neg hlen]
    rfl

/-- A number starts with a digit or with a minus before one. -/
theorem intDigits_eq_cons (n : Int) :
    ∃ c cs, intDigits n = c :: cs ∧ Text.isBlank c = false ∧ (c ≠ '"' ∧ c ≠ '\'') ∧
      ∀ after, startsNumber (c :: (cs ++ after)) = true := by
  cases hdig : Nat.toDigits 10 n.natAbs with
  | nil => exact absurd hdig Nat.toDigits_ne_nil
  | cons d ds =>
      have hd : d.isDigit = true :=
        isDigit_toDigits (n := n.natAbs) (by rw [hdig]; exact List.mem_cons_self ..)
      unfold intDigits
      split
      · refine ⟨'-', _, rfl, by decide, by decide, fun after => ?_⟩
        simp [hdig, startsNumber, textIsDigit_of_isDigit hd]
      · have hq : d ≠ '"' ∧ d ≠ '\'' := by
          constructor <;> rintro rfl <;> exact absurd hd (by decide)
        refine ⟨d, ds, hdig, ?_, hq, fun after => ?_⟩
        · have := (isDigit_iff d).mp hd
          exact isBlank_of_ascii (by omega)
        · cases hrest : ds ++ after <;> simp [startsNumber, textIsDigit_of_isDigit hd]

theorem read_intDigits (n : Int) {c : Char} {cs : List Char} (hcs : intDigits n = c :: cs)
    (after : List Char) : read c (cs ++ after) = number (intDigits n ++ after) := by
  obtain ⟨c', cs', hcs', -, hq, hnum⟩ := intDigits_eq_cons n
  obtain ⟨rfl, rfl⟩ := List.cons.inj (hcs.symm.trans hcs')
  rw [read, if_neg (by simp [hq.1, hq.2]), if_pos (hnum after), hcs, List.cons_append]

def ofInt (n : Int) : Lexeme :=
  ⟨.integer n, intDigits n⟩

theorem readable_ofInt {n : Int} (hn : Json.IntReadable n) : (ofInt n).Readable := by
  obtain ⟨c, cs, hcs, hblank, -⟩ := intDigits_eq_cons n
  refine ⟨c, cs, hcs, hblank, fun after hafter => ?_⟩
  rw [read_intDigits n hcs, number_intDigits n hafter, if_neg (Nat.not_lt.mpr hn)]
  rfl

end DocStore.Lexeme
