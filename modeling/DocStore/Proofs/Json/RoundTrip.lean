import DocStore.Json.Writer
import DocStore.Proofs.Codec.RoundTrip
import DocStore.Proofs.Number.Digits
import DocStore.Proofs.Table
import Mathlib.Algebra.Order.Ring.Nat

/-!
# Reading what was written

`parseChars_writeChars`: the text of a readable value, in any layout that
puts blanks behind commas and colons only, is read back as that value.
Readable values (`Json.Readable`) hold no doubles, no integer of more
digits than a reader takes, and no object with one key twice.

The induction is on the value. Its statement (`readValue_writeChars`)
speaks of a text that goes on behind the value, and asks of what follows
only that it cannot extend a number (`EndsNumber`): commas, brackets and
the end of the text do that.
-/

namespace DocStore.Json

/-! ## Strings -/

/-- The code point of a character, or its two surrogates where it is
escaped as such. -/
def unitsOf (asciiOnly : Bool) (c : Char) : List Nat :=
  if asciiOnly && 0x10000 ≤ c.toNat then
    [0xD800 + (c.toNat - 0x10000) / 0x400, 0xDC00 + (c.toNat - 0x10000) % 0x400]
  else
    [c.toNat]

theorem readUnits?_unitEscape {n : Nat} (h : n < 0x10000) (rest : List Char) :
    readUnits? (unitEscape n ++ rest) =
      (readUnits? rest).map fun (units, r) => (n :: units, r) := by
  obtain ⟨a, b, c, d, hds, hunit⟩ := hexUnit?_hexDigits h
  simp only [unitEscape, hds, List.cons_append, List.nil_append, readUnits?, hunit]
  cases readUnits? rest <;> rfl

/-- A character that is not escaped is read as its code point. -/
theorem readUnits?_plain {c : Char} (hq : c ≠ '"') (hb : c ≠ '\\') (hc : 0x20 ≤ c.toNat)
    (rest : List Char) :
    readUnits? (c :: rest) = (readUnits? rest).map fun (units, r) => (c.toNat :: units, r) := by
  have hlt : ¬ c.toNat < 0x20 := by omega
  rw [readUnits?.eq_def]
  split
  · rename_i heq
    cases heq
  · rename_i heq
    exact absurd (List.cons.inj heq).1 hq
  · rename_i heq
    exact absurd (List.cons.inj heq).1 hb
  · rename_i heq
    exact absurd (List.cons.inj heq).1 hb
  · rename_i heq
    obtain ⟨rfl, rfl⟩ := List.cons.inj heq
    simp only [hlt, hb, decide_false, Bool.or_self, Bool.false_eq_true, if_false]
    cases readUnits? rest <;> rfl

theorem readUnits?_escape {e : Char} {n : Nat} (he : e ≠ 'u') (h : escapeValue? e = some n)
    (rest : List Char) :
    readUnits? ('\\' :: e :: rest) =
      (readUnits? rest).map fun (units, r) => (n :: units, r) := by
  rw [readUnits?.eq_def]
  split
  · rename_i heq
    cases heq
  · rename_i heq
    exact absurd (List.cons.inj heq).1 (by decide)
  · rename_i heq
    exact absurd (List.cons.inj (List.cons.inj heq).2).1 he
  · rename_i heq
    obtain ⟨rfl, rfl⟩ := List.cons.inj (List.cons.inj heq).2
    simp only [h]
    cases readUnits? rest <;> rfl
  · rename_i hno heq
    obtain ⟨rfl, rfl⟩ := List.cons.inj heq
    exact (hno e rest rfl rfl).elim

/-- The four ways in which a character is written: escaped by a letter,
escaped by its code point, as it is, or escaped by two surrogates. -/
theorem writeChar_cases (asciiOnly : Bool) (c : Char) :
    (∃ e, e ≠ 'u' ∧ escapeValue? e = some c.toNat ∧ writeChar asciiOnly c = ['\\', e])
      ∨ (c.toNat < 0x10000 ∧ writeChar asciiOnly c = unitEscape c.toNat)
      ∨ (c ≠ '"' ∧ c ≠ '\\' ∧ 0x20 ≤ c.toNat ∧ (asciiOnly = true → c.toNat < 0x7F)
          ∧ writeChar asciiOnly c = [c])
      ∨ (asciiOnly = true ∧ 0x10000 ≤ c.toNat ∧ writeChar asciiOnly c =
          unitEscape (0xD800 + (c.toNat - 0x10000) / 0x400) ++
            unitEscape (0xDC00 + (c.toNat - 0x10000) % 0x400)) := by
  by_cases hletter : c = '"' ∨ c = '\\' ∨ c = '\n' ∨ c = '\r' ∨ c = '\t' ∨ c = '\x08' ∨ c = '\x0c'
  · left
    rcases hletter with rfl | rfl | rfl | rfl | rfl | rfl | rfl <;>
      exact ⟨_, by decide, rfl, rfl⟩
  · right
    simp only [not_or] at hletter
    obtain ⟨hq, hb, hn, hr, ht, hbs, hff⟩ := hletter
    simp only [writeChar, hq, hb, hn, hr, ht, hbs, hff, if_false]
    split
    · exact Or.inl ⟨by omega, rfl⟩
    split
    · rename_i hc hplain
      refine Or.inr (Or.inl ⟨hq, hb, by omega, fun ha => ?_, rfl⟩)
      simpa [ha] using hplain
    · rename_i hc hplain
      simp only [Bool.or_eq_true, Bool.not_eq_true', decide_eq_true_eq, not_or,
        Bool.not_eq_false] at hplain
      split
      · rename_i h
        exact Or.inl ⟨h, rfl⟩
      · exact Or.inr (Or.inr ⟨hplain.1, by omega, rfl⟩)

/-- A character below the astral planes is one unit, however it is
written. -/
theorem unitsOf_of_lt {asciiOnly : Bool} {c : Char} (h : asciiOnly = true → c.toNat < 0x10000) :
    unitsOf asciiOnly c = [c.toNat] := by
  cases asciiOnly with
  | false => rfl
  | true =>
      have hlt : ¬ 0x10000 ≤ c.toNat := by
        have := h rfl
        omega
      simp [unitsOf, hlt]

theorem toNat_lt_unicode (c : Char) : c.toNat < 0x110000 := by
  rcases c.valid with h | h
  · exact Nat.lt_trans h (by omega)
  · exact h.2

/-- A written character is read as its units. -/
theorem readUnits?_writeChar (asciiOnly : Bool) (c : Char) (rest : List Char) :
    readUnits? (writeChar asciiOnly c ++ rest) =
      (readUnits? rest).map fun (units, r) => (unitsOf asciiOnly c ++ units, r) := by
  have hmax := toNat_lt_unicode c
  rcases writeChar_cases asciiOnly c with
    ⟨e, he, hval, hw⟩ | ⟨hlt, hw⟩ | ⟨hq, hb, hc, hascii, hw⟩ | ⟨ha, hle, hw⟩
  · have hlt : c.toNat < 0x10000 := by
      revert hval
      unfold escapeValue?
      split <;> simp +contextual <;> omega
    rw [hw, unitsOf_of_lt fun _ => hlt]
    exact readUnits?_escape he hval rest
  · rw [hw, unitsOf_of_lt fun _ => hlt]
    exact readUnits?_unitEscape hlt rest
  · rw [hw, unitsOf_of_lt fun ha => Nat.lt_trans (hascii ha) (by omega)]
    exact readUnits?_plain hq hb hc rest
  · have hunits : unitsOf asciiOnly c = [0xD800 + (c.toNat - 0x10000) / 0x400,
        0xDC00 + (c.toNat - 0x10000) % 0x400] := by
      simp [unitsOf, ha, hle]
    rw [hw, hunits, List.append_assoc, readUnits?_unitEscape (by omega),
      readUnits?_unitEscape (by omega)]
    cases readUnits? rest <;> rfl

theorem readUnits?_flatMap (asciiOnly : Bool) (cs rest : List Char) :
    readUnits? (cs.flatMap (writeChar asciiOnly) ++ '"' :: rest) =
      some (cs.flatMap (unitsOf asciiOnly), rest) := by
  induction cs with
  | nil => rfl
  | cons c cs ih =>
      rw [List.flatMap_cons, List.append_assoc, readUnits?_writeChar, ih]
      rfl

/-! ## Surrogates -/

theorem not_surrogate (c : Char) : ¬ (0xD800 ≤ c.toNat ∧ c.toNat < 0xE000) := by
  rcases c.valid with h | h
  · intro hs
    exact absurd h (Nat.not_lt.mpr hs.1)
  · intro hs
    exact absurd h.1 (Nat.not_lt.mpr (Nat.le_of_lt_succ hs.2))

theorem charOfCode_toNat (c : Char) : Codec.charOfCode c.toNat = c := by
  rw [Codec.charOfCode, if_neg (not_surrogate c), Char.ofNat_toNat]

/-- A code point is never taken for half of a pair of surrogates. -/
theorem joinSurrogates_cons_toNat (c : Char) (units : List Nat) :
    Codec.joinSurrogates (c.toNat :: units) = c :: Codec.joinSurrogates units := by
  cases units with
  | nil => simp [Codec.joinSurrogates, charOfCode_toNat]
  | cons n rest =>
      have hhigh : Codec.isHighSurrogate c.toNat = false := by
        have := not_surrogate c
        simp only [Codec.isHighSurrogate, Bool.and_eq_false_iff, decide_eq_false_iff_not]
        omega
      simp [Codec.joinSurrogates, hhigh, charOfCode_toNat]

theorem joinSurrogates_unitsOf (asciiOnly : Bool) (c : Char) (units : List Nat) :
    Codec.joinSurrogates (unitsOf asciiOnly c ++ units) = c :: Codec.joinSurrogates units := by
  by_cases h : asciiOnly = true → c.toNat < 0x10000
  · rw [unitsOf_of_lt h]
    exact joinSurrogates_cons_toNat c units
  · simp only [Classical.not_imp, Nat.not_lt] at h
    obtain ⟨ha, hle⟩ := h
    have hmax := toNat_lt_unicode c
    have hhigh : Codec.isHighSurrogate (0xD800 + (c.toNat - 0x10000) / 0x400) = true := by
      simp only [Codec.isHighSurrogate, Bool.and_eq_true, decide_eq_true_eq]
      omega
    have hlow : Codec.isLowSurrogate (0xDC00 + (c.toNat - 0x10000) % 0x400) = true := by
      simp only [Codec.isLowSurrogate, Bool.and_eq_true, decide_eq_true_eq]
      omega
    have hcode : 0x10000 + (c.toNat - 0x10000) / 0x400 * 0x400 + (c.toNat - 0x10000) % 0x400 =
        c.toNat := by
      omega
    simp [unitsOf, ha, hle, Codec.joinSurrogates, hhigh, hlow, hcode]

theorem joinSurrogates_flatMap (asciiOnly : Bool) (cs : List Char) :
    Codec.joinSurrogates (cs.flatMap (unitsOf asciiOnly)) = cs := by
  induction cs with
  | nil => rfl
  | cons c cs ih => rw [List.flatMap_cons, joinSurrogates_unitsOf, ih]

/-- A written string is read back, up to its closing quote. -/
theorem readString_writeString (asciiOnly : Bool) (s : String) (rest : List Char) :
    readString (s.toList.flatMap (writeChar asciiOnly) ++ '"' :: rest) = .ok (s, rest) := by
  simp only [readString, readString?, readUnits?_flatMap, Option.map_some,
    joinSurrogates_flatMap, String.ofList_toList]
  rfl

/-! ## Integers -/

/-- What follows cannot be read as a part of a number. -/
def EndsNumber (rest : List Char) : Prop :=
  ∀ c ∈ rest.head?, c.isDigit = false ∧ c ≠ '.' ∧ c ≠ 'e' ∧ c ≠ 'E'

theorem endsNumber_nil : EndsNumber [] := by
  simp [EndsNumber]

theorem endsNumber_cons {c : Char} {rest : List Char}
    (h : c.isDigit = false ∧ c ≠ '.' ∧ c ≠ 'e' ∧ c ≠ 'E') : EndsNumber (c :: rest) := by
  intro d hd
  obtain rfl : c = d := by simpa using hd
  exact h

theorem EndsNumber.noDigitAhead {rest : List Char} (h : EndsNumber rest) : NoDigitAhead rest :=
  fun c hc => (h c hc).1

theorem splitFraction_of_endsNumber {rest : List Char} (h : EndsNumber rest) :
    splitFraction rest = ([], rest) := by
  unfold splitFraction
  split
  · exact absurd rfl (h '.' rfl).2.1
  · rfl

theorem splitExponent_of_endsNumber {rest : List Char} (h : EndsNumber rest) :
    splitExponent rest = (none, rest) := by
  cases rest with
  | nil => rfl
  | cons c rest =>
      have hc := (h c rfl).2.2
      simp [splitExponent, hc.1, hc.2]

/-- An integer that a reader takes: it has no more digits than allowed. -/
def IntReadable (n : Int) : Prop :=
  (Nat.toDigits 10 n.natAbs).length ≤ Text.maxIntDigits

theorem intReadable_of_lt {n : Int} (h : n.natAbs < 10 ^ Text.maxIntDigits) : IntReadable n :=
  (Nat.length_toDigits_le_iff (by omega) (by decide)).mpr h

theorem readNumber_toDigits (negative : Bool) {n : Nat}
    (hn : (Nat.toDigits 10 n).length ≤ Text.maxIntDigits) {rest : List Char}
    (hrest : EndsNumber rest) :
    readNumber negative (Nat.toDigits 10 n ++ rest) =
      .ok (int (if negative then -(n : Int) else n), rest) := by
  have hne : (Nat.toDigits 10 n).isEmpty = false := by simp
  have hlen : ¬ Text.maxIntDigits < (Nat.toDigits 10 n).length := Nat.not_lt.mpr hn
  simp only [readNumber, splitWhole_toDigits n hrest.noDigitAhead, hne,
    splitFraction_of_endsNumber hrest, splitExponent_of_endsNumber hrest, Bool.false_eq_true,
    if_false, List.isEmpty_nil, Option.isNone_none, Bool.and_self, if_true, hlen,
    Nat.ofDigitChars_ten_toDigits]

/-- A digit at the head of a text starts a number. -/
theorem readValue_of_isDigit {d : Char} (hd : d.isDigit = true) (fuel : Nat) (cs : List Char) :
    readValue (fuel + 1) (d :: cs) = readNumber false (d :: cs) := by
  rw [readValue.eq_def]
  split
  · rename_i heq
    cases heq
  · rename_i hfuel
    obtain rfl := Nat.succ.inj hfuel
    split <;> rename_i heq <;>
      first
        | rfl
        | (obtain ⟨rfl, -⟩ := List.cons.inj heq
           exact absurd hd (by decide))
        | cases heq

theorem readValue_of_minus {d : Char} (hd : d.isDigit = true) (fuel : Nat) (cs : List Char) :
    readValue (fuel + 1) ('-' :: d :: cs) = readNumber true (d :: cs) := by
  have hI : d ≠ 'I' := by
    rintro rfl
    exact absurd hd (by decide)
  simp [readValue, hI]

theorem readValue_intDigits {n : Int} (hn : IntReadable n) (fuel : Nat) {rest : List Char}
    (hrest : EndsNumber rest) :
    readValue (fuel + 1) (intDigits n ++ rest) = .ok (int n, rest) := by
  have hnum (negative : Bool) := readNumber_toDigits negative hn hrest
  unfold intDigits
  cases hds : Nat.toDigits 10 n.natAbs with
  | nil => exact absurd hds Nat.toDigits_ne_nil
  | cons d ds =>
      rw [hds] at hnum
      have hd : d.isDigit = true :=
        isDigit_toDigits (n := n.natAbs) (by rw [hds]; exact List.mem_cons_self ..)
      split
      · rename_i hneg
        rw [List.cons_append, List.cons_append, readValue_of_minus hd]
        rw [← List.cons_append, hnum true]
        have habs : -(n.natAbs : Int) = n := by omega
        simp only [if_true, habs]
      · rename_i hpos
        rw [List.cons_append, readValue_of_isDigit hd]
        rw [← List.cons_append, hnum false]
        have habs : (n.natAbs : Int) = n := by omega
        simp only [Bool.false_eq_true, if_false, habs]

/-! ## Layouts and readable values -/

/-- A blank between the tokens of a JSON text. -/
def IsSpace (c : Char) : Prop :=
  c = ' ' ∨ c = '\t' ∨ c = '\n' ∨ c = '\r'

instance : DecidablePred IsSpace :=
  fun _ => inferInstanceAs (Decidable (_ ∨ _ ∨ _ ∨ _))

theorem skipBlanks_append {ws : List Char} (h : ∀ c ∈ ws, IsSpace c) (cs : List Char) :
    skipBlanks (ws ++ cs) = skipBlanks cs := by
  induction ws with
  | nil => rfl
  | cons w ws ih =>
      have hw : IsSpace w := h w (List.mem_cons_self ..)
      have hrest := ih fun c hc => h c (List.mem_cons_of_mem _ hc)
      simp only [skipBlanks] at hrest ⊢
      rcases hw with rfl | rfl | rfl | rfl <;> simpa using hrest

theorem skipBlanks_cons {c : Char} (h : ¬ IsSpace c) (cs : List Char) :
    skipBlanks (c :: cs) = c :: cs := by
  simp only [IsSpace, not_or] at h
  simp [skipBlanks, h.1, h.2.1, h.2.2.1, h.2.2.2]

/-- Behind its commas and colons a layout puts blanks and nothing else. -/
def SpacesOnly (l : Layout) : Prop :=
  ∃ behindComma behindColon : List Char, l.comma = ',' :: behindComma ∧ l.colon = ':' :: behindColon
    ∧ (∀ c ∈ behindComma, IsSpace c) ∧ ∀ c ∈ behindColon, IsSpace c

theorem spacesOnly_compactAscii : SpacesOnly .compactAscii :=
  ⟨[], [], rfl, rfl, by simp, by simp⟩

theorem spacesOnly_spacedAscii : SpacesOnly .spacedAscii :=
  ⟨[' '], [' '], rfl, rfl, by simp [IsSpace], by simp [IsSpace]⟩

mutual

/-- The value is read back from its text: it holds no double, its
integers can be read and its objects have no key twice. -/
def Readable : Json → Prop
  | int n => IntReadable n
  | float _ => False
  | arr vs => ReadableElements vs
  | obj fs => (Table.keys fs).Nodup ∧ ReadableFields fs
  | null | bool _ | str _ => True

def ReadableElements : List Json → Prop
  | [] => True
  | v :: vs => Readable v ∧ ReadableElements vs

def ReadableFields : List (String × Json) → Prop
  | [] => True
  | (_, v) :: fs => Readable v ∧ ReadableFields fs

end

theorem readableElements_iff {vs : List Json} : ReadableElements vs ↔ ∀ v ∈ vs, Readable v := by
  induction vs with
  | nil => simp [ReadableElements]
  | cons v vs ih => rw [ReadableElements, ih, List.forall_mem_cons]

theorem readableFields_iff {fs : List (String × Json)} :
    ReadableFields fs ↔ ∀ f ∈ fs, Readable f.2 := by
  induction fs with
  | nil => simp [ReadableFields]
  | cons f fs ih => rw [ReadableFields, ih, List.forall_mem_cons]

/-! ## Values -/

/-- A written value starts with a character that is neither a blank nor a
closing bracket. -/
theorem writeChars_head (l : Layout) {v : Json} (hv : Readable v) :
    ∃ c cs, v.writeChars l = c :: cs ∧ ¬ IsSpace c ∧ c ≠ ']' ∧ c ≠ '\x7d' := by
  cases v with
  | null => exact ⟨'n', _, by simp [writeChars]; rfl, by decide, by decide, by decide⟩
  | bool b =>
      cases b with
      | true => exact ⟨'t', _, by simp [writeChars]; rfl, by decide, by decide, by decide⟩
      | false => exact ⟨'f', _, by simp [writeChars]; rfl, by decide, by decide, by decide⟩
  | int n =>
      simp only [writeChars, intDigits]
      split
      · exact ⟨'-', _, rfl, by decide, by decide, by decide⟩
      · cases hds : Nat.toDigits 10 n.natAbs with
        | nil => exact absurd hds Nat.toDigits_ne_nil
        | cons d ds =>
            have hd : d.isDigit = true :=
              isDigit_toDigits (n := n.natAbs) (by rw [hds]; exact List.mem_cons_self ..)
            refine ⟨d, ds, rfl, ?_, ?_, ?_⟩
            · rintro (rfl | rfl | rfl | rfl) <;> exact absurd hd (by decide)
            · rintro rfl
              exact absurd hd (by decide)
            · rintro rfl
              exact absurd hd (by decide)
  | float x => exact hv.elim
  | str s =>
      exact ⟨'"', _, by simp only [writeChars, writeString]; rfl, by decide, by decide, by decide⟩
  | arr vs =>
      cases vs <;>
        exact ⟨'[', _, by simp only [writeChars]; rfl, by decide, by decide, by decide⟩
  | obj fs =>
      cases fs <;>
        exact ⟨'\x7b', _, by simp only [writeChars]; rfl, by decide, by decide, by decide⟩

theorem skipBlanks_writeChars (l : Layout) {v : Json} (hv : Readable v) (rest : List Char) :
    skipBlanks (v.writeChars l ++ rest) = v.writeChars l ++ rest := by
  obtain ⟨c, cs, hw, hc, -, -⟩ := writeChars_head l hv
  rw [hw, List.cons_append, skipBlanks_cons hc]

theorem readConstant_append (word : String) (v : Json) (rest : List Char) :
    readConstant word v (word.toList ++ rest) = .ok (v, rest) := by
  have hdrop : ∀ ws : List Char, dropWord? ws (ws ++ rest) = some rest := by
    intro ws
    induction ws with
    | nil => rfl
    | cons w ws ih => simp [dropWord?, ih]
  simp only [readConstant, hdrop]
  rfl

mutual

/-- Reading a written value, whatever ends it. The fuel of a whole text
is its length, so it bounds the length of what is left to read. -/
theorem readValue_writeChars {l : Layout} (hl : SpacesOnly l) : ∀ (v : Json), Readable v →
    ∀ (fuel : Nat) (rest : List Char), (v.writeChars l).length < fuel → EndsNumber rest →
      readValue fuel (v.writeChars l ++ rest) = .ok (v, rest)
  | _, _, 0, _, hfuel, _ => absurd hfuel (Nat.not_lt_zero _)
  | .null, _, fuel + 1, rest, _, _ => by
      rw [writeChars]
      exact readConstant_append "null" null rest
  | .bool true, _, fuel + 1, rest, _, _ => by
      rw [writeChars]
      exact readConstant_append "true" (bool true) rest
  | .bool false, _, fuel + 1, rest, _, _ => by
      rw [writeChars]
      exact readConstant_append "false" (bool false) rest
  | .int n, hv, fuel + 1, rest, _, hrest => by
      rw [writeChars]
      exact readValue_intDigits hv fuel hrest
  | .float x, hv, _, _, _, _ => hv.elim
  | .str s, _, fuel + 1, rest, _, _ => by
      simp only [writeChars, writeString, List.cons_append, List.append_assoc, List.nil_append,
        readValue, readString_writeString]
      rfl
  | .arr [], _, fuel + 1, rest, _, _ => by
      simp [writeChars, readValue, skipBlanks]
  | .arr (v :: vs), hv, fuel + 1, rest, hfuel, _ => by
      obtain ⟨c, cs, hw, hc, hclose, -⟩ := writeChars_head l hv.1
      have hread := readElements_writeChars hl (v :: vs) hv v vs rfl fuel rest (by
        simp only [writeChars, List.length_cons, List.length_append, List.length_nil] at hfuel ⊢
        omega)
      simp only [writeChars, List.cons_append, List.append_assoc, List.nil_append, readValue]
      rw [skipBlanks_writeChars l hv.1]
      rw [hw, List.cons_append] at hread ⊢
      split
      · rename_i heq
        exact absurd (List.cons.inj heq).1 hclose
      · rw [hread]
        rfl
  | .obj [], _, fuel + 1, rest, _, _ => by
      simp [writeChars, readValue, skipBlanks]
  | .obj ((k, v) :: fs), hv, fuel + 1, rest, hfuel, _ => by
      have hread := readFields_writeChars hl ((k, v) :: fs) hv.2 k v fs rfl fuel rest (by
        simp only [writeChars, List.length_cons, List.length_append, List.length_nil] at hfuel ⊢
        omega)
      simp only [writeChars, List.cons_append, List.append_assoc, List.nil_append, readValue,
        writeString] at hread ⊢
      rw [skipBlanks_cons (by decide)]
      split
      · rename_i heq
        exact absurd (List.cons.inj heq).1 (by decide)
      · rw [hread]
        simp only [bind, Except.bind, pure, Except.pure, Table.ofEntries_of_nodup hv.1]

/-- Reading the elements of a written array, up to its closing bracket. -/
theorem readElements_writeChars {l : Layout} (hl : SpacesOnly l) : ∀ (vs : List Json),
    ReadableElements vs → ∀ v ws, vs = v :: ws → ∀ (fuel : Nat) (rest : List Char),
      (v.writeChars l ++ writeElements l ws).length + 1 < fuel →
      readElements fuel (v.writeChars l ++ (writeElements l ws ++ ']' :: rest)) =
        .ok (v :: ws, rest)
  | [], _, _, _, heq, _, _, _ => by cases heq
  | _ :: _, _, _, _, _, 0, _, hfuel => absurd hfuel (Nat.not_lt_zero _)
  | v :: ws, hvs, _, _, rfl, fuel + 1, rest, hfuel => by
      obtain ⟨hv, hws⟩ := hvs
      simp only [List.length_append] at hfuel
      have htail := readElements_writeChars hl ws hws
      have hends : EndsNumber (writeElements l ws ++ ']' :: rest) := by
        obtain ⟨wc, -, hcomma, -⟩ := hl
        cases ws with
        | nil => exact endsNumber_cons (by decide)
        | cons w ws =>
            simp only [writeElements, hcomma, List.cons_append]
            exact endsNumber_cons (by decide)
      have hread := readValue_writeChars hl v hv fuel _ (by omega) hends
      simp only [readElements, hread, bind, Except.bind]
      cases ws with
      | nil => simp [writeElements, skipBlanks, pure, Except.pure]
      | cons w ws =>
          obtain ⟨wc, -, hcomma, -, hspace, -⟩ := hl
          obtain ⟨c, cs, hw, -⟩ := writeChars_head l hv
          have hlen := congrArg List.length hw
          simp only [writeElements, hcomma, List.length_append, List.length_cons] at hfuel hlen
          have hrest := htail w ws rfl fuel rest (by
            simp only [List.length_append]
            omega)
          simp only [writeElements, hcomma, List.cons_append, List.append_assoc]
          rw [skipBlanks_cons (by decide)]
          simp only [skipBlanks_append hspace, skipBlanks_writeChars l hws.1, hrest, pure,
            Except.pure]

/-- Reading the fields of a written object, up to its closing brace. -/
theorem readFields_writeChars {l : Layout} (hl : SpacesOnly l) : ∀ (fs : List (String × Json)),
    ReadableFields fs → ∀ k v gs, fs = (k, v) :: gs → ∀ (fuel : Nat) (rest : List Char),
      (writeString l.asciiOnly k ++ l.colon ++ v.writeChars l ++ writeFields l gs).length + 1
        < fuel →
      readFields fuel (writeString l.asciiOnly k ++ (l.colon ++ (v.writeChars l ++
        (writeFields l gs ++ '\x7d' :: rest)))) = .ok ((k, v) :: gs, rest)
  | [], _, _, _, _, heq, _, _, _ => by cases heq
  | _ :: _, _, _, _, _, _, 0, _, hfuel => absurd hfuel (Nat.not_lt_zero _)
  | (k, v) :: gs, hfs, _, _, _, rfl, fuel + 1, rest, hfuel => by
      obtain ⟨hv, hgs⟩ := hfs
      simp only [List.length_append] at hfuel
      have htail := readFields_writeChars hl gs hgs
      obtain ⟨wc, wn, hcomma, hcolon, hspace, hspace'⟩ := hl
      have hends : EndsNumber (writeFields l gs ++ '\x7d' :: rest) := by
        cases gs with
        | nil => exact endsNumber_cons (by decide)
        | cons g gs =>
            simp only [writeFields, hcomma, List.cons_append]
            exact endsNumber_cons (by decide)
      have hread := readValue_writeChars ⟨wc, wn, hcomma, hcolon, hspace, hspace'⟩ v hv fuel _
        (by omega) hends
      simp only [writeString, hcolon, List.cons_append, List.append_assoc, List.nil_append,
        readFields, readString_writeString, bind, Except.bind]
      rw [skipBlanks_cons (by decide)]
      simp only [skipBlanks_append hspace', skipBlanks_writeChars l hv, hread]
      cases gs with
      | nil => simp [writeFields, skipBlanks, pure, Except.pure]
      | cons g gs =>
          obtain ⟨k', w⟩ := g
          simp only [writeFields, writeString, hcomma, hcolon, List.length_append,
            List.length_cons] at hfuel
          have hrest := htail k' w gs rfl fuel rest (by
            simp only [writeString, hcolon, List.length_append, List.length_cons]
            omega)
          simp only [writeString, hcolon, List.cons_append, List.append_assoc,
            List.nil_append] at hrest
          simp only [writeFields, writeString, hcomma, hcolon, List.cons_append,
            List.append_assoc, List.nil_append]
          rw [skipBlanks_cons (by decide)]
          simp only [skipBlanks_append hspace]
          rw [skipBlanks_cons (by decide)]
          simp only [hrest, pure, Except.pure]

end

/-- The text of a readable value is read back as the value. -/
theorem parseChars_writeChars {l : Layout} (hl : SpacesOnly l) {v : Json} (hv : Readable v) :
    parseChars (v.writeChars l) = .ok v := by
  have hread := readValue_writeChars hl v hv ((v.writeChars l).length + 1) []
    (Nat.lt_succ_self _) endsNumber_nil
  have hskip := skipBlanks_writeChars l hv []
  rw [List.append_nil] at hread hskip
  simp only [parseChars, hskip, hread, bind, Except.bind]
  rfl

end DocStore.Json
