import DocStore.Json.Reader
import DocStore.Text.Quoted

/-!
# Digits of counts

What readers of numerals need to know of the digits that writers put
down: decimal digits are digits and start with a zero only for zero
itself (`splitWhole_toDigits`), and four hexadecimal digits give the
unit back that they were written for (`hexUnit?_hexDigits`).
-/

namespace DocStore

/-! ## Decimal digits -/

theorem isDigit_toDigits {n : Nat} {c : Char} (h : c ∈ Nat.toDigits 10 n) :
    c.isDigit = true :=
  Nat.isDigit_of_mem_toDigits (by omega) (by omega) h

/-- Only zero is written with a zero in front. -/
theorem head?_toDigits_ne_zero {n : Nat} (h : n ≠ 0) :
    (Nat.toDigits 10 n).head? ≠ some '0' := by
  induction n using Nat.strongRecOn with
  | ind n ih =>
      rw [Nat.toDigits_eq_if (by omega)]
      split
      · simpa using h
      · have hlt : n / 10 < n := Nat.div_lt_self (by omega) (by omega)
        have hne : n / 10 ≠ 0 := by omega
        have hhead := ih (n / 10) hlt hne
        cases hds : Nat.toDigits 10 (n / 10) with
        | nil => exact absurd hds Nat.toDigits_ne_nil
        | cons d ds =>
            rw [hds] at hhead
            exact hhead

/-- No digit stands at the head of a text. -/
def NoDigitAhead (cs : List Char) : Prop :=
  ∀ c ∈ cs.head?, c.isDigit = false

theorem takeWhile_digits_append {ds rest : List Char} (hds : ∀ c ∈ ds, c.isDigit = true)
    (hrest : NoDigitAhead rest) : (ds ++ rest).takeWhile Char.isDigit = ds := by
  rw [List.takeWhile_append_of_pos hds]
  cases rest with
  | nil => simp
  | cons c cs => simp [hrest c (by simp)]

theorem dropWhile_digits_append {ds rest : List Char} (hds : ∀ c ∈ ds, c.isDigit = true)
    (hrest : NoDigitAhead rest) : (ds ++ rest).dropWhile Char.isDigit = rest := by
  rw [List.dropWhile_append_of_pos hds]
  cases rest with
  | nil => simp
  | cons c cs => simp [hrest c (by simp)]

namespace Json

theorem splitDigits_append {ds rest : List Char} (hds : ∀ c ∈ ds, c.isDigit = true)
    (hrest : NoDigitAhead rest) : splitDigits (ds ++ rest) = (ds, rest) := by
  simp only [splitDigits, takeWhile_digits_append hds hrest, dropWhile_digits_append hds hrest]

/-- The digits of a count, followed by no further digit, are split off
as a whole. -/
theorem splitWhole_toDigits (n : Nat) {rest : List Char} (hrest : NoDigitAhead rest) :
    splitWhole (Nat.toDigits 10 n ++ rest) = (Nat.toDigits 10 n, rest) := by
  by_cases hn : n = 0
  · subst hn
    simp [splitWhole]
  · have hhead := head?_toDigits_ne_zero hn
    have hsplit := splitDigits_append (fun c => isDigit_toDigits (n := n) (c := c)) hrest
    cases hds : Nat.toDigits 10 n with
    | nil => exact absurd hds Nat.toDigits_ne_nil
    | cons d ds =>
        rw [hds] at hhead hsplit
        have hd : d ≠ '0' := by simpa using hhead
        rw [splitWhole.eq_def]
        split
        · rename_i heq
          exact absurd (List.cons.inj heq).1 hd
        · exact hsplit

/-! ## Hexadecimal digits -/

theorem hexValue?_digitChar : ∀ n < 16, hexValue? (Nat.digitChar n) = some n := by
  decide

/-- Four hexadecimal digits, one by one. -/
theorem hexDigits_four {n : Nat} (h : n < 0x10000) :
    Text.hexDigits 4 n = [Nat.digitChar (n / 0x1000), Nat.digitChar (n / 0x100 % 16),
      Nat.digitChar (n / 0x10 % 16), Nat.digitChar (n % 16)] := by
  have hdiv (a b : Nat) : n / a / b = n / (a * b) := Nat.div_div_eq_div_mul ..
  simp only [Text.hexDigits]
  by_cases h1 : n < 16
  · have e1 : n / 0x1000 = 0 := by omega
    have e2 : n / 0x100 % 16 = 0 := by omega
    have e3 : n / 0x10 % 16 = 0 := by omega
    have e4 : n % 16 = n := by omega
    rw [Nat.toDigits_of_lt_base h1, e1, e2, e3, e4]
    rfl
  · rw [Nat.toDigits_of_base_le (by omega) (by omega)]
    by_cases h2 : n / 16 < 16
    · have e1 : n / 0x1000 = 0 := by omega
      have e2 : n / 0x100 % 16 = 0 := by omega
      have e3 : n / 0x10 % 16 = n / 16 := by omega
      rw [Nat.toDigits_of_lt_base h2, e1, e2, e3]
      rfl
    · rw [Nat.toDigits_of_base_le (by omega) (by omega), hdiv]
      by_cases h3 : n / (16 * 16) < 16
      · have e1 : n / 0x1000 = 0 := by omega
        have e2 : n / 0x100 % 16 = n / (16 * 16) := by omega
        rw [Nat.toDigits_of_lt_base h3, e1, e2]
        rfl
      · have h4 : n / (16 * 16 * 16) < 16 := by omega
        rw [Nat.toDigits_of_base_le (by omega) (by omega), hdiv, Nat.toDigits_of_lt_base h4]
        rfl

/-- Four hexadecimal digits give their number back. -/
theorem hexUnit?_hexDigits {n : Nat} (h : n < 0x10000) :
    ∃ a b c d, Text.hexDigits 4 n = [a, b, c, d] ∧ hexUnit? a b c d = some n := by
  refine ⟨_, _, _, _, hexDigits_four h, ?_⟩
  simp only [hexUnit?, hexValue?_digitChar _ (show n / 0x1000 < 16 by omega),
    hexValue?_digitChar _ (show n / 0x100 % 16 < 16 by omega),
    hexValue?_digitChar _ (show n / 0x10 % 16 < 16 by omega),
    hexValue?_digitChar _ (show n % 16 < 16 by omega)]
  show some _ = some n
  congr 1
  omega

end Json

end DocStore
