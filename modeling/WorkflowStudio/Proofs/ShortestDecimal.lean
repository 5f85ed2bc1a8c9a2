import WorkflowStudio.Decimal.Shortest
import WorkflowStudio.Proofs.DoubleRounding

/-!
The shortest decimal of a number lies in the interval of the decimals that round to it, and
so it reads back as that number. Either a candidate was found in the interval, or the last
one has so many digits that it cannot lie outside.
-/
namespace WorkflowStudio

/-! Powers of ten beside powers of two. The quotient 30103 / 100000 is the logarithm of two
to the base of ten up to a millionth of a percent. -/

theorem two_pow_le_ten_pow : 2 ^ 100000 ≤ 10 ^ 30103 := by decide +kernel

theorem ten_pow_le_two_pow : 10 ^ 30103 ≤ 2 ^ 100001 := by decide +kernel

theorem le_of_pow_le_pow {a b k : ℕ} (hk : 0 < k) (h : a ^ k ≤ b ^ k) : a ≤ b :=
  (Nat.pow_le_pow_iff_left hk.ne').mp h

/-- The power of ten that is guessed for a power of two is at most twice as large. -/
theorem ten_pow_le_of_mul_le {g L : ℕ} (h : g * 100000 ≤ L * 30103) (hL : L ≤ 100000) :
    10 ^ g ≤ 2 ^ (L + 1) := by
  refine le_of_pow_le_pow (show 0 < 100000 by decide) ?_
  calc (10 ^ g) ^ 100000 = 10 ^ (g * 100000) := (Nat.pow_mul ..).symm
    _ ≤ 10 ^ (30103 * L) := Nat.pow_le_pow_right (by decide) (by omega)
    _ = (10 ^ 30103) ^ L := Nat.pow_mul 10 30103 L
    _ ≤ (2 ^ 100001) ^ L := Nat.pow_le_pow_left ten_pow_le_two_pow L
    _ = 2 ^ (100001 * L) := (Nat.pow_mul ..).symm
    _ ≤ 2 ^ ((L + 1) * 100000) := Nat.pow_le_pow_right (by decide) (by omega)
    _ = (2 ^ (L + 1)) ^ 100000 := Nat.pow_mul ..

theorem two_pow_le_of_le_mul {g L : ℕ} (h : L * 30103 ≤ g * 100000) : 2 ^ L ≤ 10 ^ g := by
  refine le_of_pow_le_pow (show 0 < 100000 by decide) ?_
  calc (2 ^ L) ^ 100000 = 2 ^ (L * 100000) := (Nat.pow_mul ..).symm
    _ = (2 ^ 100000) ^ L := by rw [Nat.mul_comm, Nat.pow_mul]
    _ ≤ (10 ^ 30103) ^ L := Nat.pow_le_pow_left two_pow_le_ten_pow L
    _ = 10 ^ (30103 * L) := (Nat.pow_mul 10 30103 L).symm
    _ ≤ 10 ^ (g * 100000) := Nat.pow_le_pow_right (by decide) (by omega)
    _ = (10 ^ g) ^ 100000 := Nat.pow_mul ..

/-- The same for whole exponents. -/
theorem ten_zpow_le {L : ℤ} (hL : L ≤ 100000) : (10 : ℚ) ^ (L * 30103 / 100000) ≤ 2 ^ (L + 1) := by
  rcases le_or_gt 0 L with hpos | hneg
  · obtain ⟨L, rfl⟩ := Int.eq_ofNat_of_zero_le hpos
    have hle := ten_pow_le_of_mul_le (g := L * 30103 / 100000) (L := L) (by omega) (by omega)
    have hcast : (10 : ℚ) ^ (L * 30103 / 100000) ≤ 2 ^ (L + 1) := by exact_mod_cast hle
    exact_mod_cast hcast
  · obtain ⟨g, hg⟩ := Int.eq_ofNat_of_zero_le (a := -(L * 30103 / 100000)) (by omega)
    obtain ⟨k, hk⟩ := Int.eq_ofNat_of_zero_le (a := -L) (by omega)
    have hle : 2 ^ k ≤ 10 ^ g := two_pow_le_of_le_mul (by omega)
    have hcast : (2 : ℚ) ^ k ≤ 10 ^ g := by exact_mod_cast hle
    have hfirst : (10 : ℚ) ^ (L * 30103 / 100000) ≤ 2 ^ L := by
      rw [show L * 30103 / 100000 = -(g : ℤ) by omega, show L = -(k : ℤ) by omega, zpow_neg,
        zpow_neg, zpow_natCast, zpow_natCast]
      exact inv_anti₀ (by positivity) hcast
    exact hfirst.trans (zpow_le_zpow_right₀ (by norm_num) (by omega))

theorem two_zpow_le {L g : ℕ} (h : L * 30103 ≤ g * 100000) :
    (2 : ℚ) ^ (L : ℤ) ≤ 10 ^ (g : ℤ) := by
  rw [zpow_natCast, zpow_natCast]
  exact_mod_cast two_pow_le_of_le_mul h

namespace Double

variable {x : Double}

/-! The range of finite numbers. -/

theorem exponent_le (h : x.isFinite = true) : x.exponent ≤ 971 := by
  have hbound : x.magnitude < infinityBits := of_decide_eq_true h
  unfold infinityBits at hbound
  unfold exponent biasedExponent
  rw [hiddenBit_eq]
  omega

theorem size_pos (h : x.isZero = false) : 0 < x.size := by
  have hpos : (0 : ℚ) < x.mantissa := by exact_mod_cast mantissa_pos h
  unfold size
  positivity

theorem le_size (h : x.isZero = false) : (2 : ℚ) ^ (-1074 : ℤ) ≤ x.size := by
  have hone : (1 : ℚ) ≤ x.mantissa := by exact_mod_cast mantissa_pos h
  calc (2 : ℚ) ^ (-1074 : ℤ) ≤ 2 ^ x.exponent :=
        zpow_le_zpow_right₀ (by norm_num) (neg_1074_le_exponent x)
    _ ≤ x.size := le_mul_of_one_le_left (by positivity) hone

theorem size_lt (h : x.isFinite = true) : x.size < 2 ^ (1024 : ℤ) := by
  have hlt : (x.mantissa : ℚ) < 2 ^ (53 : ℤ) := by exact_mod_cast mantissa_lt x
  calc x.size < 2 ^ (53 : ℤ) * 2 ^ x.exponent := mul_lt_mul_of_pos_right hlt (by positivity)
    _ = 2 ^ (53 + x.exponent) := (zpow_add₀ (by norm_num) ..).symm
    _ ≤ 2 ^ (1024 : ℤ) := zpow_le_zpow_right₀ (by norm_num) (by linarith [exponent_le h])

/-- What a number attracts lies between half of it and twice of it. -/
theorem Attracts.bounds (hzero : x.isZero = false) {r : ℚ}
    (h : x.Attracts (r / 2 ^ x.exponent)) : x.size / 2 ≤ r ∧ r ≤ 2 * x.size := by
  have hone : (1 : ℚ) ≤ x.mantissa := by exact_mod_cast mantissa_pos hzero
  have hunit : (0 : ℚ) < 2 ^ x.exponent := by positivity
  obtain ⟨⟨hlow, hhigh, -⟩, -⟩ := h
  rw [le_div_iff₀ hunit] at hlow
  rw [div_le_iff₀ hunit] at hhigh
  have hscaled := mul_le_mul_of_nonneg_right hone hunit.le
  unfold size
  constructor <;> nlinarith

/-- What a number attracts lies within the range of the doubles, a little widened. -/
theorem Attracts.range (hzero : x.isZero = false) (hfinite : x.isFinite = true) {r : ℚ}
    (h : x.Attracts (r / 2 ^ x.exponent)) : (2 : ℚ) ^ (-1075 : ℤ) ≤ r ∧ r < 2 ^ (1025 : ℤ) := by
  obtain ⟨hlow, hhigh⟩ := h.bounds hzero
  constructor
  · have hsize := le_size hzero
    have hhalf : (2 : ℚ) ^ (-1074 - 1 : ℤ) = 2 ^ (-1074 : ℤ) * 2⁻¹ := zpow_sub_one₀ (by norm_num) _
    calc (2 : ℚ) ^ (-1075 : ℤ) = 2 ^ (-1074 : ℤ) * 2⁻¹ := hhalf
      _ ≤ x.size / 2 := by linarith
      _ ≤ r := hlow
  · have hsize := size_lt hfinite
    have hdouble : (2 : ℚ) ^ (1 + 1024 : ℤ) = 2 * 2 ^ (1024 : ℤ) := zpow_one_add₀ (by norm_num) _
    calc r ≤ 2 * x.size := hhigh
      _ < 2 * 2 ^ (1024 : ℤ) := by linarith
      _ = 2 ^ (1025 : ℤ) := hdouble.symm

/-! The guess for the exponent of the leading digit of a decimal in that range. -/

section Lead

variable {n : ℕ} {e : ℤ}

theorem log2_le_of_lt (hn : 0 < n) (he : -1000 ≤ e) (h : (n : ℚ) * 10 ^ e < 2 ^ (1025 : ℤ)) :
    (n.log2 : ℤ) ≤ 100000 := by
  have hlog : (2 : ℚ) ^ (n.log2 : ℤ) ≤ n := by
    rw [zpow_natCast]
    exact two_pow_log2_le hn
  have hscaled : (n : ℚ) * 10 ^ e * 10 ^ (-e) = n := by
    rw [mul_assoc, ← zpow_add₀ (by norm_num), add_neg_cancel, zpow_zero, mul_one]
  have hinverse : (10 : ℚ) ^ (-e) ≤ 2 ^ (4000 : ℤ) := by
    calc (10 : ℚ) ^ (-e) ≤ 10 ^ (1000 : ℤ) := zpow_le_zpow_right₀ (by norm_num) (by omega)
      _ ≤ 2 ^ (4000 : ℤ) := by
        have hcrude : (10 : ℚ) ≤ 2 ^ 4 := by norm_num
        have hpower := pow_le_pow_left₀ (by norm_num) hcrude 1000
        rw [← pow_mul] at hpower
        exact_mod_cast hpower
  have hbound : (n : ℚ) < 2 ^ (1025 + 4000 : ℤ) := by
    calc (n : ℚ) = n * 10 ^ e * 10 ^ (-e) := hscaled.symm
      _ < 2 ^ (1025 : ℤ) * 10 ^ (-e) := mul_lt_mul_of_pos_right h (by positivity)
      _ ≤ 2 ^ (1025 : ℤ) * 2 ^ (4000 : ℤ) := mul_le_mul_of_nonneg_left hinverse (by positivity)
      _ = 2 ^ (1025 + 4000 : ℤ) := (zpow_add₀ (by norm_num) ..).symm
  have hlt := (zpow_lt_zpow_iff_right₀ (by norm_num : (1 : ℚ) < 2)).mp (hlog.trans_lt hbound)
  omega

theorem lead_le (hn : 0 < n) (hlog : (n.log2 : ℤ) ≤ 100000)
    (h : (n : ℚ) * 10 ^ e < 2 ^ (1025 : ℤ)) : (n.log2 : ℤ) * 30103 / 100000 + e ≤ 400 := by
  have hlogLow : (2 : ℚ) ^ (n.log2 : ℤ) ≤ n := by
    rw [zpow_natCast]
    exact two_pow_log2_le hn
  have hten : (0 : ℚ) < 10 ^ e := by positivity
  have hlead : (10 : ℚ) ^ ((n.log2 : ℤ) * 30103 / 100000 + e) < 10 ^ (309 : ℤ) := by
    calc (10 : ℚ) ^ ((n.log2 : ℤ) * 30103 / 100000 + e)
        = 10 ^ ((n.log2 : ℤ) * 30103 / 100000) * 10 ^ e := zpow_add₀ (by norm_num) ..
      _ ≤ 2 ^ ((n.log2 : ℤ) + 1) * 10 ^ e := mul_le_mul_of_nonneg_right (ten_zpow_le hlog) hten.le
      _ = 2 * (2 ^ (n.log2 : ℤ) * 10 ^ e) := by rw [zpow_add₀ (by norm_num)]; ring
      _ ≤ 2 * (n * 10 ^ e) := by gcongr
      _ < 2 * 2 ^ (1025 : ℤ) := by linarith
      _ = 2 ^ (1026 : ℤ) := (zpow_one_add₀ (by norm_num) 1025).symm
      _ ≤ 10 ^ (309 : ℤ) := two_zpow_le (L := 1026) (g := 309) (by decide)
  have hlt := (zpow_lt_zpow_iff_right₀ (by norm_num : (1 : ℚ) < 10)).mp hlead
  omega

theorem le_lead (h : (2 : ℚ) ^ (-1075 : ℤ) ≤ n * 10 ^ e) :
    -400 ≤ (n.log2 : ℤ) * 30103 / 100000 + e := by
  have hlogHigh : (n : ℚ) < 2 * 2 ^ (n.log2 : ℤ) := by
    rw [zpow_natCast, ← pow_succ']
    exact lt_two_pow_log2 n
  have hten : (0 : ℚ) < 10 ^ e := by positivity
  have hlead : (10 : ℚ) ^ (-324 : ℤ) < 10 ^ ((n.log2 : ℤ) * 30103 / 100000 + e + 2) := by
    calc (10 : ℚ) ^ (-324 : ℤ) ≤ 2 ^ (-1075 : ℤ) := by
          rw [zpow_neg, zpow_neg]
          exact inv_anti₀ (by positivity) (two_zpow_le (L := 1075) (g := 324) (by decide))
      _ ≤ n * 10 ^ e := h
      _ < 2 * 2 ^ (n.log2 : ℤ) * 10 ^ e := mul_lt_mul_of_pos_right hlogHigh hten
      _ ≤ 2 * 10 ^ ((n.log2 : ℤ) * 30103 / 100000 + 1) * 10 ^ e := by
          have hlog : (2 : ℚ) ^ (n.log2 : ℤ) ≤ 10 ^ ((n.log2 * 30103 / 100000 + 1 : ℕ) : ℤ) :=
            two_zpow_le (by omega)
          push_cast at hlog
          gcongr
      _ ≤ 10 * 10 ^ ((n.log2 : ℤ) * 30103 / 100000 + 1) * 10 ^ e := by gcongr; norm_num
      _ = 10 ^ ((n.log2 : ℤ) * 30103 / 100000 + e + 2) := by
          rw [← zpow_one_add₀ (by norm_num), ← zpow_add₀ (by norm_num)]
          congr 1
          ring
  have hlt := (zpow_lt_zpow_iff_right₀ (by norm_num : (1 : ℚ) < 10)).mp hlead
  omega

/-- A decimal that a number attracts has an exponent that is not settled beforehand. -/
theorem Attracts.lead_bounds (hzero : x.isZero = false) (hfinite : x.isFinite = true)
    (he : -1000 ≤ e) (h : x.Attracts (n * 10 ^ e / 2 ^ x.exponent)) :
    0 < n ∧ (n.log2 : ℤ) * 30103 / 100000 + e ≤ 400 ∧
      -400 ≤ (n.log2 : ℤ) * 30103 / 100000 + e := by
  obtain ⟨hlow, hhigh⟩ := h.range hzero hfinite
  have hn : 0 < n := by
    rcases Nat.eq_zero_or_pos n with rfl | hpos
    · have htiny : (0 : ℚ) < 2 ^ (-1075 : ℤ) := by positivity
      rw [Nat.cast_zero, zero_mul] at hlow
      linarith
    · exact hpos
  exact ⟨hn, lead_le hn (log2_le_of_lt hn he hhigh) hhigh, le_lead hlow⟩

end Lead

/-- A decimal that a number attracts is read as this number. -/
theorem ofDecimal_eq (hzero : x.isZero = false) (hfinite : x.isFinite = true) {n : ℕ} {e : ℤ}
    (he : -1000 ≤ e) (h : x.Attracts (n * 10 ^ e / 2 ^ x.exponent)) (negative : Bool) :
    ofDecimal negative n e = ofSigned negative x.magnitude := by
  obtain ⟨hpos, hupper, hlower⟩ := h.lead_bounds hzero hfinite he
  have hratio : ((n * 10 ^ e.toNat : ℕ) : ℚ) / (10 ^ (-e).toNat : ℕ) = n * 10 ^ e := by
    rw [← pow_toNat_div 10 (by norm_num) e]
    push_cast
    ring
  rw [ofDecimal, if_neg hpos.ne']
  simp only [Nat.pow_eq]
  rw [if_neg (by omega), if_neg (by omega)]
  exact ofRatio_eq hzero hfinite (by positivity) (by rw [hratio]; exact h) negative

end Double
namespace Decimal

open Double (roundQuotient)

/-- The exponent of the leading digit is not too large. -/
theorem ten_zpow_leadingPower_le {num den : ℕ} (hnum : 0 < num) (hden : 0 < den)
    (hlog : (num.log2 : ℤ) - den.log2 ≤ 100000) :
    (10 : ℚ) ^ leadingPower num den ≤ num / den := by
  have hreaches (p : ℤ) := zpow_le_ratio_iff num (b := 10) (by norm_num) hden p
  rw [Nat.cast_ofNat] at hreaches
  unfold leadingPower
  dsimp only
  split
  · rename_i h
    exact (hreaches _).mp (of_decide_eq_true h)
  · split
    · rename_i h
      exact (hreaches _).mp (of_decide_eq_true h)
    · have hguess := ten_zpow_le hlog
      have hbelow := (Double.ratio_log2_bounds hnum hden).1
      rw [zpow_sub_one₀ (by norm_num)] at hbelow ⊢
      rw [zpow_add_one₀ (by norm_num)] at hguess
      have hpos : (0 : ℚ) < 2 ^ ((num.log2 : ℤ) - den.log2) := by positivity
      linarith

theorem le_leadingPower {num den : ℕ} {k : ℤ} (h : k ≤ (num.log2 : ℤ) - den.log2) :
    k * 30103 / 100000 - 1 ≤ leadingPower num den := by
  unfold leadingPower
  dsimp only
  split
  · omega
  · split <;> omega

/-- The value of a decimal. -/
def value (d : Decimal) : ℚ := d.digits * 10 ^ d.exponent

/-! The basin of a number on its scale of whole numbers. -/

section Basin

variable {x : Double}

theorem basin_unit (x : Double) :
    ((2 ^ (x.exponent - 2).toNat : ℕ) : ℚ) / (basin x).scale = 2 ^ x.exponent / 4 := by
  have hexp : (2 - x.exponent).toNat = (-(x.exponent - 2)).toNat := by omega
  have hdiv := pow_toNat_div 2 (by norm_num) (x.exponent - 2)
  rw [zpow_sub₀ (by norm_num)] at hdiv
  unfold basin
  simp only [Nat.pow_eq]
  rw [hexp]
  push_cast
  rw [hdiv]
  norm_num

theorem basin_scale_pos (x : Double) : 0 < (basin x).scale := by
  unfold basin
  simp only [Nat.pow_eq]
  positivity

theorem basin_value (x : Double) : ((basin x).value : ℚ) / (basin x).scale = x.size := by
  have hunit := basin_unit x
  have hvalue : (basin x).value = 4 * x.mantissa * 2 ^ (x.exponent - 2).toNat := rfl
  rw [hvalue, Nat.cast_mul, mul_div_assoc, hunit, Double.size]
  push_cast
  ring

theorem basin_low (hzero : x.isZero = false) :
    ((basin x).low : ℚ) / (basin x).scale / 2 ^ x.exponent =
      if x.mantissa = 2 ^ 52 ∧ 1 < x.biasedExponent then (x.mantissa : ℚ) - 1 / 4
      else x.mantissa - 1 / 2 := by
  have hunit := basin_unit x
  have hpos := Double.mantissa_pos hzero
  have hpow : (0 : ℚ) < 2 ^ x.exponent := by positivity
  have hlow : (basin x).low = (4 * x.mantissa -
      if x.mantissa = 2 ^ 52 ∧ 1 < x.biasedExponent then 1 else 2) *
        2 ^ (x.exponent - 2).toNat := rfl
  rw [hlow, Nat.cast_mul, mul_div_assoc, hunit]
  split
  · rw [Nat.cast_sub (by omega)]
    push_cast
    field_simp
  · rw [Nat.cast_sub (by omega)]
    push_cast
    field_simp
    ring

theorem basin_high (x : Double) :
    ((basin x).high : ℚ) / (basin x).scale / 2 ^ x.exponent = x.mantissa + 1 / 2 := by
  have hunit := basin_unit x
  have hpow : (0 : ℚ) < 2 ^ x.exponent := by positivity
  have hhigh : (basin x).high = (4 * x.mantissa + 2) * 2 ^ (x.exponent - 2).toNat := rfl
  rw [hhigh, Nat.cast_mul, mul_div_assoc, hunit]
  push_cast
  field_simp
  ring

/-- A decimal within the basin is attracted by the number. -/
theorem attracts_of_holds (hzero : x.isZero = false) {n : ℕ} {power : ℤ}
    (h : (basin x).holds n power = true) :
    x.Attracts (value ⟨n, power⟩ / 2 ^ x.exponent) := by
  have hpow : (0 : ℚ) < 2 ^ x.exponent := by positivity
  have hscale : (0 : ℚ) < (basin x).scale := by exact_mod_cast basin_scale_pos x
  have hten : (0 : ℚ) < (10 : ℚ) ^ (-power).toNat := by positivity
  have hpoint : value ⟨n, power⟩ = n * 10 ^ power.toNat / 10 ^ (-power).toNat := by
    rw [value, ← pow_toNat_div 10 (by norm_num) power, mul_div_assoc]
  have hlow := basin_low hzero
  have hhigh := basin_high x
  have hnarrow : x.IsNarrow ↔ x.mantissa = 2 ^ 52 ∧ 1 < x.biasedExponent := by
    unfold Double.IsNarrow Double.exponent
    refine and_congr_right fun _ => ?_
    omega
  -- What is compared on the scale of whole numbers is compared as quotients.
  have hle {a : ℕ} : a * 10 ^ (-power).toNat ≤ n * 10 ^ power.toNat * (basin x).scale ↔
      (a : ℚ) / (basin x).scale / 2 ^ x.exponent ≤ value ⟨n, power⟩ / 2 ^ x.exponent := by
    rw [div_le_div_iff_of_pos_right hpow, hpoint, div_le_div_iff₀ hscale hten]
    exact_mod_cast Iff.rfl
  have hge {a : ℕ} : n * 10 ^ power.toNat * (basin x).scale ≤ a * 10 ^ (-power).toNat ↔
      value ⟨n, power⟩ / 2 ^ x.exponent ≤ (a : ℚ) / (basin x).scale / 2 ^ x.exponent := by
    rw [div_le_div_iff_of_pos_right hpow, hpoint, div_le_div_iff₀ hten hscale]
    exact_mod_cast Iff.rfl
  have hlowGe : (x.mantissa : ℚ) - 1 / 2 ≤ (basin x).low / (basin x).scale / 2 ^ x.exponent := by
    rw [hlow]
    split <;> linarith
  have hlowNarrow : x.IsNarrow →
      ((basin x).low : ℚ) / (basin x).scale / 2 ^ x.exponent = x.mantissa - 1 / 4 := by
    intro hn
    rw [hlow, if_pos (hnarrow.mp hn)]
  unfold Basin.holds at h
  simp only [Nat.pow_eq] at h
  split at h
  · rename_i hclosed
    have heven : x.mantissa % 2 = 0 := of_decide_eq_true hclosed
    simp only [Bool.and_eq_true, decide_eq_true_eq] at h
    obtain ⟨hl, hr⟩ := h
    rw [hle] at hl
    rw [hge, hhigh] at hr
    refine ⟨⟨hlowGe.trans hl, hr, fun hodd => by omega⟩, fun hn => ?_⟩
    rw [hlowNarrow hn] at hl
    exact hl
  · simp only [Bool.and_eq_true, decide_eq_true_eq] at h
    obtain ⟨hl, hr⟩ := h
    rw [lt_iff_lt_of_le_iff_le hge] at hl
    rw [lt_iff_lt_of_le_iff_le hle, hhigh] at hr
    refine ⟨⟨hlowGe.trans hl.le, hr.le, fun _ => ⟨hlowGe.trans_lt hl, hr⟩⟩, fun hn => ?_⟩
    rw [hlowNarrow hn] at hl
    exact hl.le

/-- A number with seventeen digits behind the leading one is close enough. -/
theorem attracts_of_close {r : ℚ} (h : |r - x.size| ≤ x.size / (2 * 10 ^ 17)) :
    x.Attracts (r / 2 ^ x.exponent) := by
  have hpow : (0 : ℚ) < 2 ^ x.exponent := by positivity
  have hm : (x.mantissa : ℚ) < 2 ^ 53 := by exact_mod_cast Double.mantissa_lt x
  have hsize : x.size / (2 * 10 ^ 17) = x.mantissa / (2 * 10 ^ 17) * 2 ^ x.exponent := by
    rw [Double.size]
    ring
  have hquarter : (x.mantissa : ℚ) / (2 * 10 ^ 17) < 1 / 4 := by
    rw [div_lt_iff₀ (by norm_num)]
    norm_num at hm ⊢
    linarith
  rw [abs_le, hsize, Double.size] at h
  have hlow : (x.mantissa : ℚ) - 1 / 4 < r / 2 ^ x.exponent := by
    rw [lt_div_iff₀ hpow]
    nlinarith [h.1]
  have hhigh : r / 2 ^ x.exponent < x.mantissa + 1 / 4 := by
    rw [div_lt_iff₀ hpow]
    nlinarith [h.2]
  refine ⟨⟨by linarith, by linarith, fun _ => ⟨by linarith, by linarith⟩⟩, fun _ => hlow.le⟩

theorem roundQuotient_close {a b : ℕ} (hb : 0 < b) :
    |(roundQuotient a b : ℚ) - a / b| ≤ 1 / 2 := by
  have hb' : (0 : ℚ) < b := by exact_mod_cast hb
  have hdiv : (a : ℚ) = b * (a / b : ℕ) + (a % b : ℕ) := by
    exact_mod_cast (Nat.div_add_mod a b).symm
  have hmod : ((a % b : ℕ) : ℚ) < b := by exact_mod_cast Nat.mod_lt a hb
  have hquotient : (a : ℚ) / b = (a / b : ℕ) + (a % b : ℕ) / b := by
    rw [hdiv]
    field_simp
  have hrest : ((a % b : ℕ) : ℚ) / b < 1 := by
    rwa [div_lt_iff₀ hb', one_mul]
  have hrestPos : (0 : ℚ) ≤ ((a % b : ℕ) : ℚ) / b := div_nonneg (Nat.cast_nonneg _) hb'.le
  unfold roundQuotient
  dsimp only
  rw [hquotient]
  split
  · rename_i hup
    have hhalf : (1 : ℚ) / 2 ≤ (a % b : ℕ) / b := by
      rw [div_le_div_iff₀ (by norm_num) hb']
      have hle : b ≤ 2 * (a % b) := by omega
      have hcast : (b : ℚ) ≤ 2 * (a % b : ℕ) := by exact_mod_cast hle
      linarith
    push_cast
    rw [abs_le]
    constructor <;> linarith
  · rename_i hdown
    have hhalf : ((a % b : ℕ) : ℚ) / b ≤ 1 / 2 := by
      rw [div_le_div_iff₀ hb' (by norm_num)]
      have hle : 2 * (a % b) ≤ b := by omega
      have hcast : 2 * ((a % b : ℕ) : ℚ) ≤ b := by exact_mod_cast hle
      linarith
    rw [abs_le]
    constructor <;> linarith

theorem neighbours_fst (b : Basin) (power : ℤ) :
    (neighbours b power).1 =
      roundQuotient (b.value * 10 ^ (-power).toNat) (b.scale * 10 ^ power.toNat) := by
  unfold neighbours roundQuotient
  simp only [Nat.pow_eq]
  split <;> rfl

/-- The nearest multiple of a power of ten is at most half of the power away. -/
theorem neighbours_close (x : Double) (power : ℤ) :
    |value ⟨(neighbours (basin x) power).1, power⟩ - x.size| ≤ 10 ^ power / 2 := by
  have hten : (0 : ℚ) < 10 ^ power := by positivity
  have hscale := basin_scale_pos x
  have hclose := roundQuotient_close (a := (basin x).value * 10 ^ (-power).toNat)
    (b := (basin x).scale * 10 ^ power.toNat) (by positivity)
  have hscaled := ratio_scaled (basin x).value (basin x).scale (b := 10) (by norm_num) power
  rw [hscaled, basin_value, ← neighbours_fst, Nat.cast_ofNat] at hclose
  have hfactor : value ⟨(neighbours (basin x) power).1, power⟩ - x.size =
      ((neighbours (basin x) power).1 - x.size / 10 ^ power) * 10 ^ power := by
    rw [value, sub_mul, div_mul_cancel₀ _ hten.ne']
  rw [hfactor, abs_mul, abs_of_pos hten]
  have hscaledLe := mul_le_mul_of_nonneg_right hclose hten.le
  linarith

/-- Whatever the search stops at is attracted by the number. -/
theorem search_attracts (hzero : x.isZero = false) {lead : ℤ} (hlead : (10 : ℚ) ^ lead ≤ x.size)
    {fuel count : ℕ} (hcount : fuel + count = 17) :
    x.Attracts ((search (basin x) lead fuel count).value / 2 ^ x.exponent) ∧
      lead - 17 ≤ (search (basin x) lead fuel count).exponent := by
  induction fuel generalizing count with
  | zero =>
    have hlast : count = 17 := by omega
    subst hlast
    refine ⟨attracts_of_close ((neighbours_close x _).trans ?_), le_refl _⟩
    rw [zpow_sub₀ (by norm_num), div_div, div_le_div_iff₀ (by positivity) (by positivity)]
    norm_num
    linarith
  | succ fuel ih =>
    unfold search
    dsimp only
    split
    · rename_i hholds
      exact ⟨attracts_of_holds hzero hholds, by dsimp only; omega⟩
    · split
      · rename_i hholds
        exact ⟨attracts_of_holds hzero hholds, by dsimp only; omega⟩
      · exact ih (by omega)

end Basin

theorem dropZeros_value (fuel : ℕ) (d : Decimal) : (dropZeros fuel d).value = d.value := by
  induction fuel generalizing d with
  | zero => rfl
  | succ fuel ih =>
    unfold dropZeros
    split
    · rename_i hzero
      have hdigits : (d.digits : ℚ) = (d.digits / 10 : ℕ) * 10 := by
        exact_mod_cast (Nat.div_mul_cancel (Nat.dvd_of_mod_eq_zero hzero.2)).symm
      rw [ih, value, value, zpow_add_one₀ (by norm_num), hdigits]
      ring
    · rfl

theorem le_dropZeros_exponent (fuel : ℕ) (d : Decimal) :
    d.exponent ≤ (dropZeros fuel d).exponent := by
  induction fuel generalizing d with
  | zero => exact le_refl _
  | succ fuel ih =>
    unfold dropZeros
    split
    · have hnext := ih ⟨d.digits / 10, d.exponent + 1⟩
      dsimp only at hnext
      omega
    · exact le_refl _

/-- The shortest decimal of a number is attracted by it. -/
theorem shortest_attracts {x : Double} (hzero : x.isZero = false) (hfinite : x.isFinite = true) :
    x.Attracts ((shortest x).value / 2 ^ x.exponent) ∧ -400 ≤ (shortest x).exponent := by
  have hscale := basin_scale_pos x
  have hvalue := basin_value x
  have hpos : 0 < (basin x).value := by
    rcases Nat.eq_zero_or_pos (basin x).value with hnone | hpos
    · have hsize := Double.size_pos hzero
      rw [hnone, Nat.cast_zero, zero_div] at hvalue
      linarith
    · exact hpos
  obtain ⟨hlow, hhigh⟩ := Double.ratio_log2_bounds hpos hscale
  rw [hvalue] at hlow hhigh
  have htwo : (1 : ℚ) < 2 := by norm_num
  have hlogHigh := (zpow_lt_zpow_iff_right₀ htwo).mp (hlow.trans (Double.size_lt hfinite))
  have hlogLow := (zpow_lt_zpow_iff_right₀ htwo).mp ((Double.le_size hzero).trans_lt hhigh)
  have hlead := ten_zpow_leadingPower_le hpos hscale (by omega)
  have hlogLeast : -1074 ≤ ((basin x).value.log2 : ℤ) - (basin x).scale.log2 := by omega
  have hleadLow := le_leadingPower hlogLeast
  rw [hvalue] at hlead
  obtain ⟨hattracts, hexponent⟩ := search_attracts hzero hlead (show 17 + 0 = 17 from rfl)
  have hdrop := le_dropZeros_exponent 20
    (search (basin x) (leadingPower (basin x).value (basin x).scale) 17 0)
  unfold shortest
  rw [if_neg (by simp [hzero])]
  dsimp only
  rw [dropZeros_value]
  exact ⟨hattracts, by omega⟩

end Decimal
end WorkflowStudio
