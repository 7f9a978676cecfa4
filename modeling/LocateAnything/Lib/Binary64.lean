import Mathlib.Data.Rat.Floor
import Mathlib.Data.Int.Log
import Mathlib.Data.Nat.Sqrt
import Mathlib.Tactic.Linarith
import Mathlib.Tactic.SplitIfs

/-!
# Binary64 arithmetic on exact rationals

IEEE-754 double precision in its normal range, as rounding of exact results: every operation
of a `float` computation is the exact rational operation followed by `double`. Enough for
quotients, products and decimal rounding of magnitudes between `2⁻¹⁰²²` and `2¹⁰²³`; there are
no infinities, NaNs or subnormals here.

A number of the format is not a type of its own but the rational it stands for. Comparisons
and bounds are then those of an ordered field, and a rounding that the code does can be seen
in the definition. What the rounding costs is said once, as a relative error
(`abs_double_sub_le`); whoever needs a bound on a computation adds the errors of its steps.
-/

set_option autoImplicit false

namespace LocateAnything.Binary64

/-- The nearest integer, ties to even. It is Python's `round` with one argument, and the
    rounding of the significand. -/
def roundHalfEven (q : ℚ) : ℤ :=
  let r := q - ⌊q⌋
  if r < 1 / 2 then ⌊q⌋
  else if 1 / 2 < r then ⌊q⌋ + 1
  else if ⌊q⌋ % 2 = 0 then ⌊q⌋
  else ⌊q⌋ + 1

theorem roundHalfEven_cases (q : ℚ) :
    roundHalfEven q = ⌊q⌋ ∧ q ≤ ⌊q⌋ + 1 / 2 ∨ roundHalfEven q = ⌊q⌋ + 1 ∧ ⌊q⌋ + 1 / 2 ≤ q := by
  simp only [roundHalfEven]
  split_ifs with hlt hgt heven
  · exact .inl ⟨rfl, by linarith⟩
  · exact .inr ⟨rfl, by linarith⟩
  · exact .inl ⟨rfl, by linarith⟩
  · exact .inr ⟨rfl, by linarith⟩

theorem roundHalfEven_le (q : ℚ) : (roundHalfEven q : ℚ) ≤ q + 1 / 2 := by
  rcases roundHalfEven_cases q with ⟨h, -⟩ | ⟨h, hq⟩
  · rw [h]
    linarith [Int.floor_le q]
  · rw [h]
    push_cast
    linarith

theorem le_roundHalfEven (q : ℚ) : q - 1 / 2 ≤ roundHalfEven q := by
  rcases roundHalfEven_cases q with ⟨h, hq⟩ | ⟨h, -⟩
  · rw [h]
    linarith
  · rw [h]
    push_cast
    linarith [Int.lt_floor_add_one q]

@[simp] theorem roundHalfEven_intCast (n : ℤ) : roundHalfEven n = n := by
  simp [roundHalfEven]

@[simp] theorem roundHalfEven_zero : roundHalfEven 0 = 0 := by
  simp [roundHalfEven]

theorem roundHalfEven_mono {x y : ℚ} (hxy : x ≤ y) : roundHalfEven x ≤ roundHalfEven y := by
  rcases (Int.floor_le_floor hxy).lt_or_eq with hlt | heq
  · -- rounding goes no further than the next integer
    have hx : roundHalfEven x ≤ ⌊x⌋ + 1 := by
      rcases roundHalfEven_cases x with ⟨h, -⟩ | ⟨h, -⟩ <;> omega
    have hy : ⌊y⌋ ≤ roundHalfEven y := by
      rcases roundHalfEven_cases y with ⟨h, -⟩ | ⟨h, -⟩ <;> omega
    omega
  · simp only [roundHalfEven, ← heq]
    split_ifs <;> first | omega | linarith

theorem abs_roundHalfEven_le (q : ℚ) : |(roundHalfEven q : ℚ)| ≤ |q| + 1 / 2 := by
  have hle := roundHalfEven_le q
  have hge := le_roundHalfEven q
  rw [abs_le]
  constructor <;> linarith [le_abs_self q, neg_abs_le q]

/-- The unit in the last place of the 53-bit significand at the magnitude of `q`. For zero it
    is of no use, and `double` sets zero apart. -/
def ulp (q : ℚ) : ℚ := (2 : ℚ) ^ (Int.log 2 |q| - 52)

theorem ulp_pos (q : ℚ) : 0 < ulp q := zpow_pos (by norm_num) _

theorem ulp_le {q : ℚ} (hq : q ≠ 0) : ulp q ≤ |q| := by
  have hlog : (2 : ℚ) ^ Int.log 2 |q| ≤ |q| := by
    exact_mod_cast Int.zpow_log_le_self (by norm_num) (abs_pos.mpr hq)
  refine le_trans (zpow_le_zpow_right₀ (by norm_num) ?_) hlog
  omega

/-- The binary64 number nearest to `q`, ties to even. -/
def double (q : ℚ) : ℚ := if q = 0 then 0 else roundHalfEven (q / ulp q) * ulp q

theorem abs_double_le (q : ℚ) : |double q| ≤ 2 * |q| := by
  unfold double
  split_ifs with hq
  · simp [hq]
  · have hu := ulp_pos q
    have hround := abs_roundHalfEven_le (q / ulp q)
    calc |(roundHalfEven (q / ulp q) : ℚ) * ulp q|
        = |(roundHalfEven (q / ulp q) : ℚ)| * ulp q := by rw [abs_mul, abs_of_pos hu]
      _ ≤ (|q / ulp q| + 1 / 2) * ulp q := mul_le_mul_of_nonneg_right hround hu.le
      _ = |q| + ulp q / 2 := by
        rw [abs_div, abs_of_pos hu, add_mul, div_mul_cancel₀ _ hu.ne']
        ring
      _ ≤ 2 * |q| := by linarith [ulp_le hq, abs_nonneg q]

theorem ulp_le_div {q : ℚ} (hq : q ≠ 0) : ulp q ≤ |q| / 2 ^ 52 := by
  have hlog : (2 : ℚ) ^ Int.log 2 |q| ≤ |q| := by
    exact_mod_cast Int.zpow_log_le_self (by norm_num) (abs_pos.mpr hq)
  rw [ulp, zpow_sub₀ (by norm_num)]
  exact div_le_div_of_nonneg_right hlog (by norm_num)

/-- The relative error of a rounding. -/
theorem abs_double_sub_le (q : ℚ) : |double q - q| ≤ |q| / 2 ^ 53 := by
  unfold double
  split_ifs with hq
  · simp [hq]
  · have hu := ulp_pos q
    have hle := roundHalfEven_le (q / ulp q)
    have hge := le_roundHalfEven (q / ulp q)
    have hround : |(roundHalfEven (q / ulp q) : ℚ) - q / ulp q| ≤ 1 / 2 := by
      rw [abs_le]
      constructor <;> linarith
    calc |(roundHalfEven (q / ulp q) : ℚ) * ulp q - q|
        = |(roundHalfEven (q / ulp q) : ℚ) - q / ulp q| * ulp q := by
          rw [← abs_of_pos hu, ← abs_mul, abs_of_pos hu, sub_mul, div_mul_cancel₀ _ hu.ne']
      _ ≤ 1 / 2 * ulp q := mul_le_mul_of_nonneg_right hround hu.le
      _ ≤ |q| / 2 ^ 53 := by linarith [ulp_le_div hq]

/-- The relative error of a product with a rounded factor: two roundings, so twice the error
    of one and a little more, for which there is room up to the next power of two. -/
theorem abs_double_mul_double_sub_le (x q : ℚ) :
    |double (x * double q) - x * q| ≤ |x * q| / 2 ^ 51 := by
  have hfactor : |x * double q - x * q| ≤ |x * q| / 2 ^ 53 := by
    rw [← mul_sub, abs_mul, abs_mul, mul_div_assoc]
    exact mul_le_mul_of_nonneg_left (abs_double_sub_le q) (abs_nonneg x)
  have hproduct := abs_double_sub_le (x * double q)
  have hsize : |x * double q| ≤ 2 * |x * q| := by
    have := abs_sub_abs_le_abs_sub (x * double q) (x * q)
    linarith [abs_nonneg (x * q)]
  have := abs_sub_le (double (x * double q)) (x * double q) (x * q)
  linarith [abs_nonneg (x * q)]

/-- Python's `round(x, digits)` on a float: the decimal nearest to the exact value, ties to
    even, read back as a float. -/
def pyRound (x : ℚ) (digits : ℕ) : ℚ :=
  double (roundHalfEven (x * 10 ^ digits) / 10 ^ digits)

theorem abs_pyRound_le (x : ℚ) (digits : ℕ) : |pyRound x digits| ≤ 2 * (|x| + 1) := by
  have hpos : (0 : ℚ) < 10 ^ digits := by positivity
  have hone : (1 : ℚ) ≤ 10 ^ digits := one_le_pow₀ (by norm_num)
  have hround := abs_roundHalfEven_le (x * 10 ^ digits)
  refine le_trans (abs_double_le _) ?_
  have : |(roundHalfEven (x * 10 ^ digits) : ℚ) / 10 ^ digits| ≤ |x| + 1 := by
    rw [abs_div, abs_of_pos hpos, div_le_iff₀ hpos]
    rw [abs_mul, abs_of_pos hpos] at hround
    linarith
  linarith

/-- The binary64 number nearest to `√q`, computed from the integer square root of the scaled
    significand, so that nothing irrational has to be rounded. -/
def sqrt (q : ℚ) : ℚ :=
  if q ≤ 0 then 0
  else
    let u : ℚ := 2 ^ (Int.log 2 q / 2 - 52)
    let m := Nat.sqrt ⌊q / u ^ 2⌋₊
    -- `√x` is nearer to `m` than to `m + 1` where `x < (m + 1/2)²`.
    if q / u ^ 2 < m ^ 2 + m + 1 / 4 then m * u else (m + 1) * u

end LocateAnything.Binary64
