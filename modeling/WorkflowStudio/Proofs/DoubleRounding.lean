import Mathlib.Algebra.Order.Field.Power
import Mathlib.Algebra.Order.Field.Rat
import Mathlib.Tactic.FieldSimp
import Mathlib.Tactic.Linarith
import Mathlib.Tactic.Ring
import WorkflowStudio.Decimal.Double

/-!
Rounding to double precision. The quotients that round to a positive double are those in an
interval around it, whose lower half is narrower below a power of two and whose ends belong
to it when the mantissa is even. Quotients are treated as rational numbers here.
-/
namespace WorkflowStudio

/-- A power with a whole exponent, as it is reckoned with on natural numbers. -/
theorem pow_toNat_div (b : ℚ) (hb : b ≠ 0) (k : ℤ) : b ^ k.toNat / b ^ (-k).toNat = b ^ k := by
  rw [← zpow_natCast, ← zpow_natCast, ← zpow_sub₀ hb]
  congr 1
  omega

theorem zpow_le_ratio_iff (num : ℕ) {b den : ℕ} (hb : 0 < b) (hden : 0 < den) (k : ℤ) :
    den * b ^ k.toNat ≤ num * b ^ (-k).toNat ↔ (b : ℚ) ^ k ≤ num / den := by
  have hd : (0 : ℚ) < den := by exact_mod_cast hden
  have hp : (0 : ℚ) < (b : ℚ) ^ (-k).toNat := by positivity
  rw [← pow_toNat_div b (by positivity) k, div_le_div_iff₀ hp hd, ← Nat.cast_le (α := ℚ)]
  push_cast
  constructor <;> intro h <;> linarith

/-- A quotient brought to another power of a base. -/
theorem ratio_scaled (num den : ℕ) {b : ℕ} (hb : 0 < b) (k : ℤ) :
    ((num * b ^ (-k).toNat : ℕ) : ℚ) / (den * b ^ k.toNat : ℕ) = num / den / (b : ℚ) ^ k := by
  rw [← pow_toNat_div b (by positivity) k]
  push_cast
  have hp : (0 : ℚ) < (b : ℚ) ^ (-k).toNat := by positivity
  have hq : (0 : ℚ) < (b : ℚ) ^ k.toNat := by positivity
  rcases Nat.eq_zero_or_pos den with rfl | hden
  · simp
  · field_simp

namespace Double

/-! The parts of a finite number. -/

theorem ofSigned_magnitude (x : Double) : ofSigned x.isNegative x.magnitude = x := by
  have hbits : x.bits.toNat < 2 ^ 64 := x.bits.toNat_lt
  have hsum : x.magnitude + (if x.isNegative then signWeight else 0) = x.bits.toNat := by
    unfold magnitude isNegative signWeight
    split
    · rename_i hneg
      have hneg := of_decide_eq_true hneg
      omega
    · rename_i hpos
      have hpos := of_decide_eq_false (Bool.eq_false_iff.mpr hpos)
      omega
  rw [ofSigned, hsum, UInt64.ofNat_toNat]

theorem magnitude_pos {x : Double} (h : x.isZero = false) : 0 < x.magnitude :=
  Nat.pos_of_ne_zero (of_decide_eq_false h)

theorem neg_1074_le_exponent (x : Double) : -1074 ≤ x.exponent := by
  unfold exponent
  omega

theorem hiddenBit_eq : hiddenBit = 2 ^ 52 := rfl

theorem mantissa_lt (x : Double) : x.mantissa < 2 ^ 53 := by
  unfold mantissa biasedExponent
  rw [hiddenBit_eq]
  split <;> omega

theorem mantissa_pos {x : Double} (h : x.isZero = false) : 0 < x.mantissa := by
  have hpos := magnitude_pos h
  unfold mantissa
  rw [hiddenBit_eq]
  split <;> omega

theorem mantissa_ge {x : Double} (h : -1074 < x.exponent) : 2 ^ 52 ≤ x.mantissa := by
  unfold exponent at h
  unfold mantissa
  rw [hiddenBit_eq]
  split <;> omega

/-- The mantissa and the exponent give the magnitude. -/
theorem magnitude_eq (x : Double) :
    (x.exponent + 1074).toNat * 2 ^ 52 + x.mantissa = x.magnitude := by
  unfold exponent mantissa biasedExponent
  rw [hiddenBit_eq]
  split <;> omega

/-! Rounding of quotients to whole numbers. -/

/-- The quotients between the middles to the next whole numbers; the middles themselves go
to the even number. -/
def NearWhole (m : ℕ) (t : ℚ) : Prop :=
  (m : ℚ) - 1 / 2 ≤ t ∧ t ≤ m + 1 / 2 ∧ (m % 2 = 1 → (m : ℚ) - 1 / 2 < t ∧ t < m + 1 / 2)

theorem roundQuotient_eq {a b m : ℕ} (hb : 0 < b) (h : NearWhole m (a / b)) :
    roundQuotient a b = m := by
  have hb' : (0 : ℚ) < b := by exact_mod_cast hb
  obtain ⟨hlow, hhigh, hodd⟩ := h
  rw [le_div_iff₀ hb'] at hlow
  rw [div_le_iff₀ hb'] at hhigh
  have hlow' : 2 * m * b ≤ 2 * a + b := by
    have h2 : (2 : ℚ) * m * b ≤ 2 * a + b := by linarith
    exact_mod_cast h2
  have hhigh' : 2 * a ≤ 2 * m * b + b := by
    have h2 : (2 : ℚ) * a ≤ 2 * m * b + b := by linarith
    exact_mod_cast h2
  have hodd' : m % 2 = 1 → 2 * m * b < 2 * a + b ∧ 2 * a < 2 * m * b + b := by
    intro hm
    obtain ⟨hl, hh⟩ := hodd hm
    rw [lt_div_iff₀ hb'] at hl
    rw [div_lt_iff₀ hb'] at hh
    constructor
    · have h2 : (2 : ℚ) * m * b < 2 * a + b := by linarith
      exact_mod_cast h2
    · have h2 : (2 : ℚ) * a < 2 * m * b + b := by linarith
      exact_mod_cast h2
  have hdiv := Nat.div_add_mod a b
  have hmod := Nat.mod_lt a hb
  -- The quotient without rounding is the whole number itself or the one before it.
  have hcases : a / b = m ∨ a / b + 1 = m := by
    have hupper : a / b < m + 1 := by
      rw [Nat.div_lt_iff_lt_mul hb]
      nlinarith
    have hlower : m ≤ a / b + 1 := by
      by_contra hlt
      have hle : a / b + 2 ≤ m := by omega
      have hprod : (a / b + 2) * b ≤ m * b := Nat.mul_le_mul_right b hle
      nlinarith
    omega
  unfold roundQuotient
  dsimp only
  rcases hcases with hsame | hbelow
  · rw [hsame] at hdiv ⊢
    refine if_neg ?_
    have hle : 2 * (a % b) ≤ b := by nlinarith
    rintro (hlt | ⟨heq, hm⟩)
    · omega
    · have hstrict := (hodd' hm).2
      nlinarith
  · have hprod : m * b = b * (a / b) + b := by rw [← hbelow]; ring
    have hge : b ≤ 2 * (a % b) := by nlinarith
    rw [if_pos, hbelow]
    rcases Nat.eq_or_lt_of_le hge with heq | hlt
    · refine Or.inr ⟨heq, ?_⟩
      by_contra heven
      have hm : m % 2 = 1 := by omega
      have hstrict := (hodd' hm).1
      nlinarith
    · exact Or.inl hlt

/-! The leading bit of a quotient. -/

theorem two_pow_log2_le {n : ℕ} (h : 0 < n) : (2 : ℚ) ^ n.log2 ≤ n := by
  exact_mod_cast Nat.log2_self_le (Nat.pos_iff_ne_zero.mp h)

theorem lt_two_pow_log2 (n : ℕ) : (n : ℚ) < 2 ^ (n.log2 + 1) := by
  exact_mod_cast Nat.lt_log2_self

/-- The logarithms of its parts give the leading bit of a quotient up to one. -/
theorem ratio_log2_bounds {num den : ℕ} (hnum : 0 < num) (hden : 0 < den) :
    (2 : ℚ) ^ ((num.log2 : ℤ) - den.log2 - 1) < num / den ∧
      (num / den : ℚ) < 2 ^ ((num.log2 : ℤ) - den.log2 + 1) := by
  have hd : (0 : ℚ) < den := by exact_mod_cast hden
  have hn : (0 : ℚ) < num := by exact_mod_cast hnum
  have hnumLow := two_pow_log2_le hnum
  have hnumHigh := lt_two_pow_log2 num
  have hdenLow := two_pow_log2_le hden
  have hdenHigh := lt_two_pow_log2 den
  have hpos (k : ℕ) : (0 : ℚ) < 2 ^ k := by positivity
  constructor
  · have heq : (2 : ℚ) ^ ((num.log2 : ℤ) - den.log2 - 1) = 2 ^ num.log2 / 2 ^ (den.log2 + 1) := by
      rw [← zpow_natCast, ← zpow_natCast, ← zpow_sub₀ (by norm_num)]
      congr 1
      push_cast
      ring
    rw [heq, div_lt_div_iff₀ (hpos _) hd]
    exact mul_lt_mul' hnumLow hdenHigh hd.le hn
  · have heq : (2 : ℚ) ^ ((num.log2 : ℤ) - den.log2 + 1) = 2 ^ (num.log2 + 1) / 2 ^ den.log2 := by
      rw [← zpow_natCast, ← zpow_natCast, ← zpow_sub₀ (by norm_num)]
      congr 1
      push_cast
      ring
    rw [heq, div_lt_div_iff₀ hd (hpos _)]
    exact mul_lt_mul hnumHigh hdenLow (hpos _) (hpos _).le

theorem leadingExponent_spec {num den : ℕ} (hnum : 0 < num) (hden : 0 < den) :
    (2 : ℚ) ^ leadingExponent num den ≤ num / den ∧
      (num / den : ℚ) < 2 ^ (leadingExponent num den + 1) := by
  obtain ⟨hlow, hhigh⟩ := ratio_log2_bounds hnum hden
  have hiff := zpow_le_ratio_iff num (b := 2) (by norm_num) hden
    ((num.log2 : ℤ) - den.log2)
  rw [Nat.cast_ofNat] at hiff
  unfold leadingExponent
  dsimp only
  split
  · rename_i hreaches
    exact ⟨hiff.mp hreaches, hhigh⟩
  · rename_i hmisses
    refine ⟨hlow.le, ?_⟩
    rw [sub_add_cancel]
    exact not_le.mp fun hle => hmisses (hiff.mpr hle)

/-! The quotients that round to a number. -/

/-- The size of a finite number. -/
def size (x : Double) : ℚ := x.mantissa * 2 ^ x.exponent

/-- Whether the next smaller number is only half as far away as the next larger one. -/
def IsNarrow (x : Double) : Prop := x.mantissa = 2 ^ 52 ∧ -1074 < x.exponent

/-- A number in the interval of those that round to a positive one, in units of its last
place. -/
def Attracts (x : Double) (t : ℚ) : Prop :=
  NearWhole x.mantissa t ∧ (x.IsNarrow → (x.mantissa : ℚ) - 1 / 4 ≤ t)

/-- The step of a quotient is the last place of the numbers that it lies between. -/
theorem leadingExponent_eq {num den : ℕ} (hnum : 0 < num) (hden : 0 < den) {k : ℤ}
    (hlow : (2 : ℚ) ^ k ≤ num / den) (hhigh : (num / den : ℚ) < 2 ^ (k + 1)) :
    leadingExponent num den = k := by
  obtain ⟨hlow', hhigh'⟩ := leadingExponent_spec hnum hden
  have hle := (zpow_lt_zpow_iff_right₀ (by norm_num : (1 : ℚ) < 2)).mp (hlow'.trans_lt hhigh)
  have hge := (zpow_lt_zpow_iff_right₀ (by norm_num : (1 : ℚ) < 2)).mp (hlow.trans_lt hhigh')
  omega

theorem leadingExponent_lt {num den : ℕ} (hnum : 0 < num) (hden : 0 < den) {k : ℤ}
    (hhigh : (num / den : ℚ) < 2 ^ k) : leadingExponent num den < k :=
  (zpow_lt_zpow_iff_right₀ (by norm_num : (1 : ℚ) < 2)).mp
    ((leadingExponent_spec hnum hden).1.trans_lt hhigh)

/-- A quotient that is rounded at a given step. -/
theorem ofRatio_of_step {negative : Bool} {num den m : ℕ} {step : ℤ} (hnum : 0 < num)
    (hden : 0 < den) (hstep : max (leadingExponent num den - 52) (-1074) = step)
    (hm : NearWhole m (num / den / 2 ^ step)) :
    ofRatio negative num den =
      ofSigned negative (min ((step + 1074).toNat * 2 ^ 52 + m) infinityBits) := by
  have hscaled := ratio_scaled num den (b := 2) (by norm_num) step
  have hrounded : roundQuotient (num * 2 ^ (-step).toNat) (den * 2 ^ step.toNat) = m := by
    refine roundQuotient_eq (by positivity) ?_
    rw [hscaled]
    exact hm
  rw [ofRatio, if_neg (by omega)]
  simp only [Nat.pow_eq]
  rw [hstep, hrounded, hiddenBit_eq]

/-! Everything in the interval of a number rounds to it. -/

section Attracts

variable {x : Double} {num den : ℕ}

theorem Attracts.lt_two_zpow {r : ℚ} (h : x.Attracts (r / 2 ^ x.exponent)) :
    r < 2 ^ (53 + x.exponent) := by
  have hle : x.mantissa + 1 ≤ 2 ^ 53 := mantissa_lt x
  have hcast : (x.mantissa : ℚ) + 1 ≤ 2 ^ 53 := by exact_mod_cast hle
  have hnear := h.1.2.1
  rw [zpow_add₀ (by norm_num), ← div_lt_iff₀ (by positivity)]
  norm_num at hcast ⊢
  linarith

theorem Attracts.num_pos (hzero : x.isZero = false) (h : x.Attracts (num / den / 2 ^ x.exponent)) :
    0 < num := by
  rcases Nat.eq_zero_or_pos num with rfl | hpos
  · have hone : (1 : ℚ) ≤ x.mantissa := by exact_mod_cast mantissa_pos hzero
    have hnear := h.1.1
    rw [Nat.cast_zero, zero_div, zero_div] at hnear
    linarith
  · exact hpos

/-- A quotient at least as large as a power of two that the number is has the last place of
the number itself, and so has every quotient of the smallest numbers. -/
theorem ofRatio_of_samePlace (hfinite : x.isFinite = true) (hnum : 0 < num) (hden : 0 < den)
    (hnear : NearWhole x.mantissa (num / den / 2 ^ x.exponent))
    (hhigh : (num / den : ℚ) < 2 ^ (53 + x.exponent))
    (hlow : (2 : ℚ) ^ (52 + x.exponent) ≤ num / den ∨ x.exponent = -1074) (negative : Bool) :
    ofRatio negative num den = ofSigned negative x.magnitude := by
  have hexp := neg_1074_le_exponent x
  have hbound : x.magnitude < infinityBits := of_decide_eq_true hfinite
  have hstep : max (leadingExponent num den - 52) (-1074) = x.exponent := by
    have hlt := leadingExponent_lt hnum hden hhigh
    rcases hlow with hlow | hsmall
    · have heq := leadingExponent_eq hnum hden hlow (by rw [add_right_comm]; exact hhigh)
      omega
    · omega
  rw [ofRatio_of_step hnum hden hstep hnear, magnitude_eq, Nat.min_eq_left hbound.le]

/-- A quotient just below a power of two is rounded up to it in the smaller last place. -/
theorem ofRatio_of_below (hfinite : x.isFinite = true) (hnum : 0 < num) (hden : 0 < den)
    (hnarrow : x.IsNarrow) (hlow : (2 : ℚ) ^ 52 - 1 / 4 ≤ num / den / 2 ^ x.exponent)
    (hhigh : (num / den / 2 ^ x.exponent : ℚ) < 2 ^ 52) (negative : Bool) :
    ofRatio negative num den = ofSigned negative x.magnitude := by
  obtain ⟨hpower, hnormal⟩ := hnarrow
  have hunit : (0 : ℚ) < 2 ^ x.exponent := by positivity
  have hbound : x.magnitude < infinityBits := of_decide_eq_true hfinite
  have hstep : max (leadingExponent num den - 52) (-1074) = x.exponent - 1 := by
    have hleast : (2 : ℚ) ^ (51 + x.exponent) ≤ num / den := by
      rw [zpow_add₀ (by norm_num), ← le_div_iff₀ hunit]
      norm_num at hlow ⊢
      linarith
    have hmost : (num / den : ℚ) < 2 ^ (51 + x.exponent + 1) := by
      rw [add_right_comm, zpow_add₀ (by norm_num), ← div_lt_iff₀ hunit]
      norm_num at hhigh ⊢
      exact hhigh
    have heq := leadingExponent_eq hnum hden hleast hmost
    omega
  have hnear : NearWhole (2 ^ 53) (num / den / 2 ^ (x.exponent - 1)) := by
    have htwice : (num / den : ℚ) / 2 ^ (x.exponent - 1) = 2 * (num / den / 2 ^ x.exponent) := by
      rw [zpow_sub₀ (by norm_num), zpow_one]
      field_simp
    rw [htwice]
    refine ⟨?_, ?_, fun hodd => absurd hodd (by norm_num)⟩
    · push_cast
      linarith
    · push_cast
      linarith
  have hplace : (x.exponent - 1 + 1074).toNat * 2 ^ 52 + 2 ^ 53 = x.magnitude := by
    have hshift : (x.exponent + 1074).toNat = (x.exponent - 1 + 1074).toNat + 1 := by omega
    rw [← magnitude_eq, hpower, hshift]
    ring
  rw [ofRatio_of_step hnum hden hstep hnear, hplace, Nat.min_eq_left hbound.le]

theorem ofRatio_eq (hzero : x.isZero = false) (hfinite : x.isFinite = true) (hden : 0 < den)
    (h : x.Attracts (num / den / 2 ^ x.exponent)) (negative : Bool) :
    ofRatio negative num den = ofSigned negative x.magnitude := by
  have hnum := h.num_pos hzero
  have hunit : (0 : ℚ) < 2 ^ x.exponent := by positivity
  by_cases hplace : (2 : ℚ) ^ 52 ≤ num / den / 2 ^ x.exponent ∨ x.exponent = -1074
  · have hlow : (2 : ℚ) ^ (52 + x.exponent) ≤ num / den ∨ x.exponent = -1074 := by
      refine hplace.imp_left fun hlarge => ?_
      rw [zpow_add₀ (by norm_num), ← le_div_iff₀ hunit]
      norm_num at hlarge ⊢
      exact hlarge
    exact ofRatio_of_samePlace hfinite hnum hden h.1 h.lt_two_zpow hlow negative
  · rw [not_or, not_le] at hplace
    obtain ⟨hbelow, hsmallest⟩ := hplace
    have hnormal := lt_of_le_of_ne (neg_1074_le_exponent x) (Ne.symm hsmallest)
    have hpower : x.mantissa = 2 ^ 52 := by
      have hge := mantissa_ge hnormal
      have hlt : (x.mantissa : ℚ) < 2 ^ 52 + 1 := by linarith [h.1.1]
      have hlt' : x.mantissa < 2 ^ 52 + 1 := by exact_mod_cast hlt
      omega
    have hquarter := h.2 ⟨hpower, hnormal⟩
    rw [hpower, Nat.cast_pow, Nat.cast_ofNat] at hquarter
    exact ofRatio_of_below hfinite hnum hden ⟨hpower, hnormal⟩ hquarter hbelow negative

end Attracts

end Double
end WorkflowStudio
