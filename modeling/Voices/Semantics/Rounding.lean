import Mathlib.Data.Int.Log
import Mathlib.Data.Rat.Floor
import Mathlib.Tactic.Linarith
import Mathlib.Tactic.Positivity

/-!
# Rounding of positive numbers

Numbers of `prec` significant bits: the nearest one is taken, of two that are as near
the one with an even last digit. The exponents have no bounds.
-/

namespace Semantics.Rounding

/-- The nearest integer, of two the even one. -/
def roundEven (q : ℚ) : ℤ :=
  if q - ⌊q⌋ < 1 / 2 then ⌊q⌋ else if 1 / 2 < q - ⌊q⌋ then ⌊q⌋ + 1 else ⌊q⌋ + ⌊q⌋ % 2

/-- The last of the `prec` digits of a number. -/
def ulp (prec : ℕ) (q : ℚ) : ℚ := 2 ^ (Int.log 2 q + 1 - prec)

def rounded (prec : ℕ) (q : ℚ) : ℚ := roundEven (q / ulp prec q) * ulp prec q

variable {prec : ℕ} {q : ℚ} {m : ℤ}

@[simp] theorem roundEven_intCast (m : ℤ) : roundEven m = m := by
  simp [roundEven]

theorem roundEven_le (h : q ≤ m) : roundEven q ≤ m := by
  obtain hEq | hLt := h.eq_or_lt
  · rw [hEq, roundEven_intCast]
  · have hFloor : ⌊q⌋ < m := Int.floor_lt.mpr hLt
    unfold roundEven
    split_ifs <;> omega

theorem lt_roundEven (h : m + 1 / 2 < q) : m < roundEven q := by
  have hFloor : m ≤ ⌊q⌋ := Int.le_floor.mpr (by linarith)
  unfold roundEven
  split_ifs with hDown
  · refine lt_of_le_of_ne hFloor fun hEq => ?_
    rw [← hEq] at hDown
    linarith
  · omega
  · refine lt_of_le_of_ne (by omega) fun hEq => ?_
    have hSame : ⌊q⌋ = m := by omega
    rename_i hUp
    rw [hSame] at hUp
    exact hUp (by linarith)

theorem ulp_pos (prec : ℕ) (q : ℚ) : 0 < ulp prec q := zpow_pos (by norm_num) _

theorem ulp_mul_le (hPos : 0 < q) : ulp prec q * 2 ^ prec ≤ 2 * q := by
  have hLog : (2 : ℚ) ^ Int.log 2 q ≤ q := Int.zpow_log_le_self (by norm_num) hPos
  calc
    ulp prec q * 2 ^ prec = 2 ^ (Int.log 2 q + 1) := by
      rw [ulp, ← zpow_natCast, ← zpow_add₀ two_ne_zero, sub_add_cancel]
    _ = 2 * 2 ^ Int.log 2 q := by rw [zpow_add_one₀ two_ne_zero, mul_comm]
    _ ≤ 2 * q := mul_le_mul_of_nonneg_left hLog two_pos.le

/-- An integer is a multiple of the last digit of a number that is small enough. -/
theorem exists_mul_ulp (hPos : 0 < q) (hLt : q < 2 ^ prec) (m : ℤ) :
    ∃ k : ℤ, (k : ℚ) * ulp prec q = m := by
  have hLog : Int.log 2 q < prec := by
    refine (Int.lt_zpow_iff_log_lt (by norm_num) hPos).mp ?_
    exact_mod_cast hLt
  obtain ⟨d, hD⟩ := Int.eq_ofNat_of_zero_le (show 0 ≤ (prec : ℤ) - (Int.log 2 q + 1) by omega)
  refine ⟨m * 2 ^ d, ?_⟩
  have hUlp : ulp prec q = (2 ^ d)⁻¹ := by
    rw [ulp, ← neg_sub, hD, zpow_neg]
    exact congrArg _ (zpow_natCast 2 d)
  rw [hUlp]
  push_cast
  exact mul_inv_cancel_right₀ (pow_ne_zero d two_ne_zero) _

theorem rounded_le (hPos : 0 < q) (hLt : q < 2 ^ prec) (h : q ≤ m) : rounded prec q ≤ m := by
  obtain ⟨k, hK⟩ := exists_mul_ulp hPos hLt m
  have hDigits : q / ulp prec q ≤ k := by
    rw [div_le_iff₀ (ulp_pos prec q), hK]
    exact h
  rw [rounded, ← hK]
  exact mul_le_mul_of_nonneg_right (by exact_mod_cast roundEven_le hDigits) (ulp_pos prec q).le

theorem lt_rounded (hPos : 0 < q) (hLt : q < 2 ^ prec) (h : m + ulp prec q / 2 < q) :
    m < rounded prec q := by
  obtain ⟨k, hK⟩ := exists_mul_ulp hPos hLt m
  have hDigits : k + 1 / 2 < q / ulp prec q := by
    rw [lt_div_iff₀ (ulp_pos prec q), add_mul, hK]
    linarith
  rw [rounded, ← hK]
  exact mul_lt_mul_of_pos_right (by exact_mod_cast lt_roundEven hDigits) (ulp_pos prec q)

theorem rounded_natCast {n : ℕ} (hLt : n < 2 ^ prec) : rounded prec n = n := by
  obtain rfl | hPos := Nat.eq_zero_or_pos n
  · simp [rounded, roundEven]
  · have hPos' : (0 : ℚ) < n := by exact_mod_cast hPos
    obtain ⟨k, hK⟩ := exists_mul_ulp hPos' (by exact_mod_cast hLt) n
    have hDigits : (n : ℚ) / ulp prec n = k :=
      (div_eq_iff (ulp_pos prec n).ne').mpr (by rw [hK]; rfl)
    rw [rounded, hDigits, roundEven_intCast, hK]
    rfl

/-- The dividend is an integer, and so the quotient is at least 1/p past the integer before it. -/
theorem ceil_sub_one_add_le {n p : ℕ} (hP : (0 : ℚ) < p) :
    ((⌈(n / p : ℚ)⌉ - 1 : ℤ) : ℚ) + 1 / p ≤ n / p := by
  have hLess : ((⌈(n / p : ℚ)⌉ - 1 : ℤ) : ℚ) < n / p := Int.lt_ceil.mp (sub_one_lt _)
  generalize ⌈(n / p : ℚ)⌉ - 1 = m at hLess ⊢
  rw [lt_div_iff₀ hP] at hLess
  have hNext : m * p + 1 ≤ (n : ℤ) := by exact_mod_cast hLess
  rw [le_div_iff₀ hP, add_mul, one_div, inv_mul_cancel₀ hP.ne']
  exact_mod_cast hNext

theorem half_ulp_lt {n p : ℚ} (hN : 0 < n) (hP : 0 < p) (hLt : n < 2 ^ prec) :
    ulp prec (n / p) / 2 < 1 / p := by
  have hUlp : ulp prec (n / p) * 2 ^ prec ≤ 2 * (n / p) := ulp_mul_le (div_pos hN hP)
  have hTwo : (0 : ℚ) < 2 ^ prec := by positivity
  rw [lt_div_iff₀ hP]
  have hScaled : ulp prec (n / p) * p * 2 ^ prec < 2 * 2 ^ prec := by
    calc
      ulp prec (n / p) * p * 2 ^ prec = ulp prec (n / p) * 2 ^ prec * p := by ring
      _ ≤ 2 * (n / p) * p := mul_le_mul_of_nonneg_right hUlp hP.le
      _ = 2 * n := by rw [mul_assoc, div_mul_cancel₀ _ hP.ne']
      _ < 2 * 2 ^ prec := by linarith
  have hCleared := lt_of_mul_lt_mul_right hScaled hTwo.le
  linarith

/-- A quotient is not rounded past an integer if the dividend is an integer of at most `prec` digits. -/
theorem rounded_div {n p : ℕ} (hDivisor : 0 < p) (hLt : n < 2 ^ prec) :
    ((⌈(n / p : ℚ)⌉ - 1 : ℤ) : ℚ) < rounded prec (n / p) ∧ rounded prec (n / p) ≤ ⌈(n / p : ℚ)⌉ := by
  obtain rfl | hDividend := Nat.eq_zero_or_pos n
  · simp [rounded, roundEven]
  have hP : (0 : ℚ) < p := by exact_mod_cast hDivisor
  have hN : (0 : ℚ) < n := by exact_mod_cast hDividend
  have hQ : (0 : ℚ) < n / p := div_pos hN hP
  have hSmall : (n : ℚ) < 2 ^ prec := by exact_mod_cast hLt
  have hBelow : (n / p : ℚ) < 2 ^ prec :=
    lt_of_le_of_lt (div_le_self hN.le (by exact_mod_cast hDivisor)) hSmall
  refine ⟨lt_rounded hQ hBelow ?_, rounded_le hQ hBelow (Int.le_ceil _)⟩
  have hPast := ceil_sub_one_add_le (n := n) hP
  have hHalf := half_ulp_lt hN hP hSmall
  linarith

end Semantics.Rounding
