import DocStore.Number.Double
import Mathlib.Algebra.Order.Ring.Nat

/-!
# Integers rounded to doubles

A positive double is its bits below the sign, read as a number
(`magnitude`): the exponent field stands above the fraction field, so
greater bits stand for a greater double (`unitsOf_lt`). An integer is
rounded to bits that grow with it (`magnitude_mono`): within one power
of two the quotient grows (`roundDiv_mono`), and from one power of two
to the next the exponent does. Hence rounding keeps the order of
integers (`units_ofInt_mono`), and the integers that no finite double
is near begin at a single bound (`ofInt_eq_none_iff`).
-/

namespace DocStore.Double

/-! ## Rounded quotients -/

theorem roundDiv_bounds (num den : Nat) :
    num / den ≤ roundDiv num den ∧ roundDiv num den ≤ num / den + 1 := by
  unfold roundDiv
  simp only
  split
  · exact ⟨Nat.le_refl _, Nat.le_succ _⟩
  · exact ⟨Nat.le_succ _, Nat.le_refl _⟩
  · split
    · exact ⟨Nat.le_refl _, Nat.le_succ _⟩
    · exact ⟨Nat.le_succ _, Nat.le_refl _⟩

theorem roundDiv_mul_right (n : Nat) {den : Nat} (hden : 0 < den) : roundDiv (n * den) den = n := by
  unfold roundDiv
  have hlt : compare 0 den = .lt := Nat.compare_eq_lt.2 hden
  simp only [Nat.mul_div_cancel _ hden, Nat.mul_mod_left, Nat.mul_zero, hlt]

/-- A greater number has a greater rounded quotient: the quotients
without remainder decide, or else the remainders. -/
theorem roundDiv_mono {num num' den : Nat} (h : num ≤ num') :
    roundDiv num den ≤ roundDiv num' den := by
  have hq : num / den ≤ num' / den := Nat.div_le_div_right h
  rcases Nat.lt_or_eq_of_le hq with hlt | heq
  · exact Nat.le_trans (roundDiv_bounds num den).2
      (Nat.le_trans hlt (roundDiv_bounds num' den).1)
  · have hr : num % den ≤ num' % den := by
      have h₁ := Nat.div_add_mod num den
      have h₂ := Nat.div_add_mod num' den
      rw [heq] at h₁
      omega
    unfold roundDiv
    simp only [heq]
    rcases Nat.lt_trichotomy (2 * (num % den)) den with hlow | hhalf | hhigh
    · rw [Nat.compare_eq_lt.2 hlow]
      simp only
      split <;> (try split) <;> omega
    · rw [Nat.compare_eq_eq.2 hhalf]
      rcases Nat.lt_or_eq_of_le (hhalf ▸ Nat.mul_le_mul_left 2 hr) with hgt | heq'
      · rw [Nat.compare_eq_gt.2 hgt]
        simp only
        split <;> omega
      · exact Nat.le_of_eq (by rw [Nat.compare_eq_eq.2 heq'.symm])
    · exact Nat.le_of_eq (by rw [Nat.compare_eq_gt.2 hhigh, Nat.compare_eq_gt.2 (by omega)])

/-! ## The bits of a rounded integer -/

/-- The bits below the sign of the double nearest to a count. -/
def magnitude (n : Nat) : Nat :=
  if n = 0 then 0
  else
    let e : Int := (n.log2 : Int) - 52
    (e + 1074).toNat * Nat.pow 2 52 + roundDiv (scaleUp n (-e)) (scaleUp 1 e)

/-- The bits below the sign of an infinity. -/
def infiniteBits : Nat :=
  2047 * Nat.pow 2 52

theorem binaryOrder_one {n : Nat} (hn : n ≠ 0) : binaryOrder n 1 = n.log2 := by
  have hle : ¬ scaleUp n (-(n.log2 : Int)) < scaleUp 1 (n.log2 : Int) := by
    have : (-(n.log2 : Int)).toNat = 0 := by omega
    simp only [scaleUp, this, Int.toNat_natCast, Nat.pow_eq, Nat.one_mul, Nat.pow_zero, Nat.mul_one,
      Nat.not_lt]
    exact Nat.log2_self_le hn
  have hone : Nat.log2 1 = 0 := by decide
  simp only [binaryOrder, hone, Int.natCast_zero, Int.sub_zero, hle, if_false]

/-- An integer is rounded to the bits of its size, unless these are the
bits of an infinity. -/
theorem nearest_one (negative : Bool) (n : Nat) :
    nearest negative n 1 =
      if infiniteBits ≤ magnitude n then infinity negative else ofParts negative (magnitude n) := by
  by_cases hn : n = 0
  · simp [hn, nearest, magnitude, infiniteBits, zero]
  · have hmax : max ((n.log2 : Int) - 52) (-1074) = (n.log2 : Int) - 52 := by omega
    simp only [nearest, hn, if_false, binaryOrder_one hn, hmax, pack, magnitude, infiniteBits]

/-- The significand of a rounded integer has 53 bits, or is the next
power of two. -/
theorem significand_bounds {n : Nat} (hn : n ≠ 0) :
    2 ^ 52 ≤ roundDiv (scaleUp n (-((n.log2 : Int) - 52))) (scaleUp 1 ((n.log2 : Int) - 52)) ∧
      roundDiv (scaleUp n (-((n.log2 : Int) - 52))) (scaleUp 1 ((n.log2 : Int) - 52)) ≤ 2 ^ 53 := by
  have hlow : 2 ^ n.log2 ≤ n := Nat.log2_self_le hn
  have hhigh : n < 2 ^ (n.log2 + 1) := Nat.lt_log2_self
  generalize n.log2 = k at *
  have hden : 0 < scaleUp 1 ((k : Int) - 52) := by
    simp only [scaleUp, Nat.one_mul]
    exact Nat.two_pow_pos _
  have hscale : 2 ^ 52 * scaleUp 1 ((k : Int) - 52) ≤ scaleUp n (-((k : Int) - 52)) ∧
      scaleUp n (-((k : Int) - 52)) ≤ 2 ^ 53 * scaleUp 1 ((k : Int) - 52) := by
    simp only [scaleUp, Nat.pow_eq, Nat.one_mul]
    rcases Nat.le_total 52 k with hk | hk
    · obtain ⟨d, rfl⟩ := Nat.exists_eq_add_of_le hk
      have h₁ : (-(((52 + d : Nat) : Int) - 52)).toNat = 0 := by omega
      have h₂ : (((52 + d : Nat) : Int) - 52).toNat = d := by omega
      rw [h₁, h₂, Nat.pow_zero, Nat.mul_one, ← Nat.pow_add, ← Nat.pow_add]
      rw [show 53 + d = 52 + d + 1 by omega]
      exact ⟨hlow, Nat.le_of_lt hhigh⟩
    · obtain ⟨d, hd⟩ := Nat.exists_eq_add_of_le hk
      have h₁ : (-((k : Int) - 52)).toNat = d := by omega
      have h₂ : ((k : Int) - 52).toNat = 0 := by omega
      rw [h₁, h₂, Nat.pow_zero, Nat.mul_one, Nat.mul_one]
      constructor
      · calc 2 ^ 52 = 2 ^ k * 2 ^ d := by rw [← Nat.pow_add, ← hd]
          _ ≤ n * 2 ^ d := Nat.mul_le_mul_right _ hlow
      · calc n * 2 ^ d ≤ 2 ^ (k + 1) * 2 ^ d := Nat.mul_le_mul_right _ (Nat.le_of_lt hhigh)
          _ = 2 ^ 53 := by rw [← Nat.pow_add, show k + 1 + d = 53 by omega]
  constructor
  · calc 2 ^ 52 = roundDiv (2 ^ 52 * scaleUp 1 ((k : Int) - 52)) (scaleUp 1 ((k : Int) - 52)) :=
        (roundDiv_mul_right _ hden).symm
      _ ≤ _ := roundDiv_mono hscale.1
  · calc _ ≤ roundDiv (2 ^ 53 * scaleUp 1 ((k : Int) - 52)) (scaleUp 1 ((k : Int) - 52)) :=
        roundDiv_mono hscale.2
      _ = 2 ^ 53 := roundDiv_mul_right _ hden

/-- Rounding keeps the order of counts: the bits grow with the quotient
inside a power of two, and with the exponent across them. -/
theorem magnitude_mono {m n : Nat} (h : m ≤ n) : magnitude m ≤ magnitude n := by
  by_cases hm : m = 0
  · simp [hm, magnitude]
  have hn : n ≠ 0 := by omega
  have hbm := significand_bounds hm
  have hbn := significand_bounds hn
  have hlog : m.log2 ≤ n.log2 := by
    rw [Nat.le_log2 hn]
    exact Nat.le_trans (Nat.log2_self_le hm) h
  simp only [magnitude, hm, hn, if_false, Nat.pow_eq]
  rcases Nat.lt_or_eq_of_le hlog with hlt | heq
  · have hfield : ((m.log2 : Int) - 52 + 1074).toNat + 1 ≤ ((n.log2 : Int) - 52 + 1074).toNat := by
      omega
    generalize ((m.log2 : Int) - 52 + 1074).toNat = a at *
    generalize ((n.log2 : Int) - 52 + 1074).toNat = b at *
    have hmul : (a + 1) * 2 ^ 52 ≤ b * 2 ^ 52 := Nat.mul_le_mul_right _ hfield
    omega
  · have hround : roundDiv (scaleUp m (-((n.log2 : Int) - 52))) (scaleUp 1 ((n.log2 : Int) - 52)) ≤
        roundDiv (scaleUp n (-((n.log2 : Int) - 52))) (scaleUp 1 ((n.log2 : Int) - 52)) :=
      roundDiv_mono (Nat.mul_le_mul_right _ h)
    rw [heq]
    exact Nat.add_le_add_left hround _

/-! ## The value of bits -/

/-- The multiple of `2 ^ -1074` that bits below the sign stand for. -/
def unitsOf (bits : Nat) : Nat :=
  if bits / 2 ^ 52 = 0 then bits % 2 ^ 52
  else (2 ^ 52 + bits % 2 ^ 52) * 2 ^ (bits / 2 ^ 52 - 1)

/-- Greater bits stand for a greater double. -/
theorem unitsOf_lt {a b : Nat} (h : a < b) : unitsOf a < unitsOf b := by
  have hfield : a / 2 ^ 52 ≤ b / 2 ^ 52 := Nat.div_le_div_right (Nat.le_of_lt h)
  have ha := Nat.div_add_mod a (2 ^ 52)
  have hb := Nat.div_add_mod b (2 ^ 52)
  have hra : a % 2 ^ 52 < 2 ^ 52 := Nat.mod_lt _ (Nat.two_pow_pos _)
  unfold unitsOf
  generalize a % 2 ^ 52 = r at *
  generalize b % 2 ^ 52 = s at *
  generalize a / 2 ^ 52 = i at *
  generalize b / 2 ^ 52 = j at *
  rcases Nat.lt_or_eq_of_le hfield with hlt | rfl
  · obtain ⟨d, rfl⟩ := Nat.exists_eq_add_of_lt hlt
    have hpos : 0 < 2 ^ (i + d) := Nat.two_pow_pos _
    rw [if_neg (by omega : i + d + 1 ≠ 0), Nat.add_sub_cancel]
    split
    · calc r < 2 ^ 52 * 1 := by omega
        _ ≤ (2 ^ 52 + s) * 2 ^ (i + d) := Nat.mul_le_mul (Nat.le_add_right _ _) hpos
    · rename_i hi
      obtain ⟨k, rfl⟩ := Nat.exists_eq_succ_of_ne_zero hi
      calc (2 ^ 52 + r) * 2 ^ (k.succ - 1) < 2 ^ 53 * 2 ^ k := by
            rw [Nat.succ_sub_one]
            exact Nat.mul_lt_mul_of_pos_right (by omega) (Nat.two_pow_pos k)
        _ = 2 ^ 52 * 2 ^ (k + 1) := by rw [← Nat.pow_add, ← Nat.pow_add]; congr 1; omega
        _ ≤ (2 ^ 52 + s) * 2 ^ (k.succ + d) :=
            Nat.mul_le_mul (Nat.le_add_right _ _) (Nat.pow_le_pow_right (by decide) (by omega))
  · split
    · omega
    · exact Nat.mul_lt_mul_of_pos_right (by omega) (Nat.two_pow_pos _)

theorem unitsOf_mono {a b : Nat} (h : a ≤ b) : unitsOf a ≤ unitsOf b := by
  rcases Nat.lt_or_eq_of_le h with hlt | rfl
  · exact Nat.le_of_lt (unitsOf_lt hlt)
  · exact Nat.le_refl _

/-- The bits and the sign, read off a double. -/
theorem toNat_ofParts (negative : Bool) {bits : Nat} (h : bits < infiniteBits) :
    (ofParts negative bits).bits.toNat = (if negative then 2 ^ 63 else 0) + bits := by
  simp only [infiniteBits, Nat.pow_eq] at h
  simp only [ofParts, Nat.pow_eq, UInt64.toNat_ofNat']
  refine Nat.mod_eq_of_lt ?_
  cases negative <;> simp only [Bool.false_eq_true, if_false, if_true] <;> omega

/-- Bits below those of an infinity stand for their units. -/
theorem units_ofParts (negative : Bool) {bits : Nat} (h : bits < infiniteBits) :
    (ofParts negative bits).view.units? =
      some (if negative then -(unitsOf bits : Int) else unitsOf bits) := by
  have hparts : ∀ s : Nat, s = 0 ∨ s = 1 →
      (s * 2 ^ 63 + bits) / 2 ^ 63 % 2 = s ∧
      (s * 2 ^ 63 + bits) / 2 ^ 52 % 2 ^ 11 = bits / 2 ^ 52 ∧
      (s * 2 ^ 63 + bits) % 2 ^ 52 = bits % 2 ^ 52 ∧ bits / 2 ^ 52 ≠ 2047 := by
    simp only [infiniteBits, Nat.pow_eq] at h
    omega
  have hview : (ofParts negative bits).view =
      if bits / 2 ^ 52 = 0 then .finite negative (bits % 2 ^ 52) (-1074)
      else .finite negative (2 ^ 52 + bits % 2 ^ 52) (((bits / 2 ^ 52 : Nat) : Int) - 1075) := by
    unfold view
    rw [toNat_ofParts negative h]
    cases negative with
    | false =>
        obtain ⟨hsign, hfield, hfraction, hfinite⟩ := hparts 0 (Or.inl rfl)
        simp only [Nat.zero_mul] at hsign hfield hfraction
        simp only [Nat.pow_eq, Bool.false_eq_true, if_false, hsign, hfield, hfraction, hfinite]
        rfl
    | true =>
        obtain ⟨hsign, hfield, hfraction, hfinite⟩ := hparts 1 (Or.inr rfl)
        simp only [Nat.one_mul] at hsign hfield hfraction
        simp only [Nat.pow_eq, if_true, hsign, hfield, hfraction, hfinite, if_false]
        rfl
  rw [hview]
  unfold unitsOf
  split
  · simp [View.units?, scaleUp]
  · rename_i hfield
    have hexp : (((bits / 2 ^ 52 : Nat) : Int) - 1075 + 1074).toNat = bits / 2 ^ 52 - 1 := by omega
    simp only [View.units?, scaleUp, hexp, Nat.pow_eq]

/-! ## Rounding integers -/

theorem View.exists_finite {v : View} {i : Int} (h : v.units? = some i) :
    ∃ negative significand exponent, v = .finite negative significand exponent := by
  cases v with
  | nan => cases h
  | infinite negative => cases h
  | finite negative significand exponent => exact ⟨_, _, _, rfl⟩

/-- An integer is rounded to its sign and the bits of its size, unless
these are the bits of an infinity. -/
theorem ofInt_eq (n : Int) :
    ofInt? n = if infiniteBits ≤ magnitude n.natAbs then none
      else some (ofParts (n < 0) (magnitude n.natAbs)) := by
  unfold ofInt?
  rw [nearest_one]
  by_cases hfinite : infiniteBits ≤ magnitude n.natAbs
  · have hview : (infinity (n < 0)).view = .infinite (n < 0) := by
      cases decide (n < 0) <;> rfl
    simp only [hfinite, if_true, hview]
  · obtain ⟨s, m, e, hview⟩ :=
      View.exists_finite (units_ofParts (n < 0) (Nat.lt_of_not_le hfinite))
    simp only [hfinite, if_false, hview]

/-- The units of a rounded integer, with its sign. -/
theorem units_of_ofInt {n : Int} {x : Double} (h : ofInt? n = some x) :
    x.view.units? = some (if n < 0 then -(unitsOf (magnitude n.natAbs) : Int)
      else unitsOf (magnitude n.natAbs)) := by
  rw [ofInt_eq] at h
  split at h
  · cases h
  · rename_i hfinite
    rw [← Option.some.inj h, units_ofParts _ (Nat.lt_of_not_le hfinite)]
    simp only [decide_eq_true_eq]

/-- Rounding keeps the order of integers. -/
theorem units_ofInt_mono {m n i j : Int} {x y : Double} (hmn : m ≤ n) (hx : ofInt? m = some x)
    (hy : ofInt? n = some y) (hi : x.view.units? = some i) (hj : y.view.units? = some j) :
    i ≤ j := by
  rw [units_of_ofInt hx, Option.some.injEq] at hi
  rw [units_of_ofInt hy, Option.some.injEq] at hj
  subst hi hj
  rcases Int.lt_or_le m 0 with hm | hm <;> rcases Int.lt_or_le n 0 with hn | hn
  · have := unitsOf_mono (magnitude_mono (by omega : n.natAbs ≤ m.natAbs))
    rw [if_pos hm, if_pos hn]
    omega
  · rw [if_pos hm, if_neg (by omega)]
    omega
  · omega
  · have := unitsOf_mono (magnitude_mono (by omega : m.natAbs ≤ n.natAbs))
    rw [if_neg (by omega), if_neg (by omega)]
    omega

/-- Halfway between the greatest finite double and the next power of
two: from here on integers are rounded to an infinity. -/
def overflowBound : Nat :=
  2 ^ 1024 - 2 ^ 970

/-- The integers that no finite double is near. -/
theorem ofInt_eq_none_iff (n : Int) : ofInt? n = none ↔ overflowBound ≤ n.natAbs := by
  have hbound : infiniteBits ≤ magnitude overflowBound := by decide +kernel
  have hbelow : magnitude (overflowBound - 1) < infiniteBits := by decide +kernel
  rw [ofInt_eq]
  rcases Nat.lt_or_ge n.natAbs overflowBound with hlt | hle
  · have hmono := magnitude_mono (Nat.le_sub_one_of_lt hlt)
    rw [if_neg (Nat.not_le.2 (Nat.lt_of_le_of_lt hmono hbelow))]
    exact iff_of_false (by simp) (Nat.not_le.2 hlt)
  · rw [if_pos (Nat.le_trans hbound (magnitude_mono hle))]
    exact iff_of_true rfl hle

end DocStore.Double
