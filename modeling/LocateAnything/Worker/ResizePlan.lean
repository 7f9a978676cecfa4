import LocateAnything.Lib.Checks
import LocateAnything.Worker.PixelTokenMath
import Mathlib.Analysis.Real.Sqrt

/-!
# `plan_resize` on every image

The worker resizes an image to the grid the model was trained on: both sides become multiples
of 28, and an image with too many patches is first scaled down to the budget. The uniform
downscale truncates, so that a very long image may lose its short side altogether. Its long
side is then beyond the positions of the model, and there is no plan
(`tooManyPatches_of_side_lost`). That is not visible in the code, which divides by the scale
of a plan without a check: it holds by arithmetic, since a side is lost only if the other one
is very many times as long. Every plan there is can be used (`plan_well_defined`).

The computations in floats are a parameter (`Arithmetic`), and the theorem is about exact ones
(`Arithmetic.Exact`). A truncated root is the delicate point. It is never computed here; it is
characterized by the squares it lies between (`le_floor_mul_sqrt_iff`), which turns each bound
into one on integers. The integer square root is one arithmetic that is exact, so the
hypothesis is not empty.
-/

set_option autoImplicit false

namespace LocateAnything.Worker

/-! ## Exact arithmetic -/

/-- The float computations of a plan, read on real numbers. -/
structure Arithmetic.Exact (A : Arithmetic) : Prop where
  downscaled : ∀ side total_patches : Nat, A.downscaled side total_patches =
    ⌊(side : ℝ) * √((inTokenLimit : ℝ) / total_patches)⌋₊
  quotient : ∀ dst_w width : Nat, A.quotient dst_w width = (dst_w : ℚ) / width

/-- A truncated root, by the squares it lies between. -/
theorem le_floor_mul_sqrt_iff (side : Nat) {t : Nat} (ht : 0 < t) (k : Nat) :
    k ≤ ⌊(side : ℝ) * √((inTokenLimit : ℝ) / t)⌋₊ ↔ k ^ 2 * t ≤ side ^ 2 * inTokenLimit := by
  have ht' : (0 : ℝ) < t := by exact_mod_cast ht
  have hratio : (0 : ℝ) ≤ inTokenLimit / t := by positivity
  rw [Nat.le_floor_iff (by positivity)]
  calc (k : ℝ) ≤ side * √(inTokenLimit / t)
      ↔ (k : ℝ) ^ 2 ≤ (side * √(inTokenLimit / t)) ^ 2 :=
        (sq_le_sq₀ (by positivity) (by positivity)).symm
    _ ↔ (k : ℝ) ^ 2 ≤ side ^ 2 * inTokenLimit / t := by
        rw [mul_pow, Real.sq_sqrt hratio, mul_div_assoc]
    _ ↔ (k : ℝ) ^ 2 * t ≤ side ^ 2 * inTokenLimit := le_div_iff₀ ht'
    _ ↔ k ^ 2 * t ≤ side ^ 2 * inTokenLimit := by exact_mod_cast Iff.rfl

theorem Arithmetic.Exact.le_downscaled_iff {A : Arithmetic} (hA : A.Exact) (side : Nat) {t : Nat}
    (ht : 0 < t) (k : Nat) :
    k ≤ A.downscaled side t ↔ k ^ 2 * t ≤ side ^ 2 * inTokenLimit := by
  rw [hA.downscaled]
  exact le_floor_mul_sqrt_iff side ht k

/-- Real numbers, computed on integers. The division below the root may be cut, as a root that
    is cut afterwards does not notice. -/
def Arithmetic.exact : Arithmetic where
  downscaled side total_patches := Nat.sqrt (side ^ 2 * inTokenLimit / total_patches)
  quotient dst_w width := dst_w / width

theorem Arithmetic.exact_exact : Arithmetic.exact.Exact := by
  refine ⟨fun side t => ?_, fun _ _ => rfl⟩
  rcases Nat.eq_zero_or_pos t with rfl | ht
  · simp [exact]
  · apply eq_of_forall_le_iff
    intro k
    rw [le_floor_mul_sqrt_iff side ht, exact, Nat.le_sqrt', Nat.le_div_iff_mul_le ht]

/-! ## A side that is lost -/

section
variable {A : Arithmetic} (hA : A.Exact) {a b : Nat}
include hA

/-- If one side is downscaled to nothing, the other one stays too long for the model. -/
theorem other_side_of_lost (hbudget : a / 14 * (b / 14) > 25600)
    (hlost : A.downscaled a (a / 14 * (b / 14)) = 0) :
    512 * 14 ≤ A.downscaled b (a / 14 * (b / 14)) := by
  have ht : 0 < a / 14 * (b / 14) := by omega
  have hpos : 0 < a / 14 := Nat.pos_of_mul_pos_right ht
  have hlt : a ^ 2 * 25600 < a / 14 * (b / 14) := by
    have hnot := mt (hA.le_downscaled_iff a ht 1).mpr (by rw [hlost]; exact Nat.not_succ_le_zero 0)
    rwa [one_pow, one_mul, Nat.not_le] at hnot
  have hratio : 5017600 * (a / 14) < b / 14 := by
    have hside : (14 * (a / 14)) ^ 2 ≤ a ^ 2 := Nat.pow_le_pow_left (Nat.mul_div_le a 14) 2
    apply Nat.lt_of_mul_lt_mul_left (a := a / 14)
    calc a / 14 * (5017600 * (a / 14)) = (14 * (a / 14)) ^ 2 * 25600 := by ring
      _ ≤ a ^ 2 * 25600 := Nat.mul_le_mul_right 25600 hside
      _ < a / 14 * (b / 14) := hlt
  rw [hA.le_downscaled_iff b ht]
  have hside : (14 * (b / 14)) ^ 2 ≤ b ^ 2 := Nat.pow_le_pow_left (Nat.mul_div_le b 14) 2
  calc (512 * 14) ^ 2 * (a / 14 * (b / 14)) = (51380224 * (a / 14)) * (b / 14) := by ring
    _ ≤ 5017600 * (b / 14) * (b / 14) := Nat.mul_le_mul_right _ (by omega)
    _ = (14 * (b / 14)) ^ 2 * 25600 := by ring
    _ ≤ b ^ 2 * 25600 := Nat.mul_le_mul_right 25600 hside

end

/-! ## Plans -/

theorem tokens_mul {a b : Nat} (ha : 28 ∣ a) (hb : 28 ∣ b) : a / 28 * (b / 28) * 784 = a * b := by
  obtain ⟨k, rfl⟩ := ha
  obtain ⟨l, rfl⟩ := hb
  rw [Nat.mul_div_cancel_left k (by decide), Nat.mul_div_cancel_left l (by decide)]
  ring

/-- A side as it is laid on the grid, of an image with `t` patches. -/
def gridSide (A : Arithmetic) (side t : Nat) : Nat :=
  if t > inTokenLimit then A.downscaled side t else side

/-- The plan, by its two sides: the code computes both in parallel and checks them together.
    -/
theorem planResize_eq (A : Arithmetic) {w h : Nat} (hw : 0 < w) (hh : 0 < h) :
    let t := w / 14 * (h / 14)
    let dst_w := gridCeil (gridSide A w t)
    let dst_h := gridCeil (gridSide A h t)
    planResize A w h =
      if dst_w / 14 ≥ 512 ∨ dst_h / 14 ≥ 512 then
        .error (.tooManyPatches w h (dst_w / 14) (dst_h / 14))
      else
        .ok ⟨w, h, dst_w, dst_h, dst_w / 14, dst_h / 14, dst_w / 14 * (dst_h / 14) / 4,
          A.quotient dst_w w⟩ := by
  have hzero : ¬ (w = 0 ∨ h = 0) := by omega
  intro t dst_w dst_h
  rw [planResize, if_neg hzero]
  rfl

theorem gridCeil_pos {side : Nat} (h : 0 < side) : 0 < gridCeil side :=
  Nat.lt_of_lt_of_le h (gridCeil_least side).2.1

/-- A side this long is beyond the positions, rounded up or not. -/
theorem gridCeil_positions {side : Nat} (h : 512 * 14 ≤ side) : gridCeil side / 14 ≥ 512 :=
  (Nat.le_div_iff_mul_le (by decide)).mpr (h.trans (gridCeil_least side).2.1)

/-- A plan that can be used: sides on the grid, within the positions, and a scale to divide
    by. `tokens` says that the number of tokens reported is that of the image the model sees.
    -/
structure Usable (plan : ImageResize) : Prop where
  dst_w_pos : 0 < plan.dst_w
  dst_h_pos : 0 < plan.dst_h
  dst_w_dvd : 28 ∣ plan.dst_w
  dst_h_dvd : 28 ∣ plan.dst_h
  n_patches_w_lt : plan.n_patches_w < 512
  n_patches_h_lt : plan.n_patches_h < 512
  tokens : plan.n_llm_tokens * 784 = plan.dst_w * plan.dst_h
  scale_pos : 0 < plan.scale

section
variable {A : Arithmetic} (hA : A.Exact) {w h : Nat} (hw : 0 < w) (hh : 0 < h)
include hA hw hh

/-- No side is lost of an image that has a plan. -/
theorem gridSide_pos (hpw : gridCeil (gridSide A w (w / 14 * (h / 14))) / 14 < 512)
    (hph : gridCeil (gridSide A h (w / 14 * (h / 14))) / 14 < 512) :
    0 < gridSide A w (w / 14 * (h / 14)) ∧ 0 < gridSide A h (w / 14 * (h / 14)) := by
  unfold gridSide at hpw hph ⊢
  by_cases hbudget : w / 14 * (h / 14) > inTokenLimit
  · rw [if_pos hbudget] at hpw hph
    rw [if_pos hbudget, if_pos hbudget]
    constructor
    · by_contra hlost
      have hlong := other_side_of_lost hA hbudget (Nat.eq_zero_of_not_pos hlost)
      exact absurd (gridCeil_positions hlong) (Nat.not_le.mpr hph)
    · by_contra hlost
      rw [Nat.mul_comm] at hbudget hlost hpw
      have hlong := other_side_of_lost hA hbudget (Nat.eq_zero_of_not_pos hlost)
      exact absurd (gridCeil_positions hlong) (Nat.not_le.mpr hpw)
  · rw [if_neg hbudget, if_neg hbudget]
    exact ⟨hw, hh⟩

theorem planResize_usable {plan : ImageResize} (hplan : planResize A w h = .ok plan) :
    Usable plan := by
  rw [planResize_eq A hw hh] at hplan
  obtain ⟨hpos, hplan⟩ := Checks.ite_error_ok_eq_ok.mp hplan
  rw [not_or, Nat.not_le, Nat.not_le] at hpos
  obtain ⟨hw', hh'⟩ := gridSide_pos hA hw hh hpos.1 hpos.2
  obtain ⟨hwdvd, -, -⟩ := gridCeil_least (gridSide A w (w / 14 * (h / 14)))
  obtain ⟨hhdvd, -, -⟩ := gridCeil_least (gridSide A h (w / 14 * (h / 14)))
  rw [← hplan]
  refine ⟨gridCeil_pos hw', gridCeil_pos hh', hwdvd, hhdvd, hpos.1, hpos.2, ?_, ?_⟩
  · dsimp only
    rw [tokens_eq hwdvd hhdvd]
    exact tokens_mul hwdvd hhdvd
  · dsimp only
    rw [hA.quotient]
    have := gridCeil_pos hw'
    positivity

/-- **An image that loses a side in the downscale has no plan.** -/
theorem tooManyPatches_of_side_lost (hbudget : w / 14 * (h / 14) > 25600)
    (hlost : A.downscaled w (w / 14 * (h / 14)) = 0 ∨ A.downscaled h (w / 14 * (h / 14)) = 0) :
    ∃ n_patches_w n_patches_h,
      planResize A w h = .error (.tooManyPatches w h n_patches_w n_patches_h) := by
  have hside : ∀ side, gridSide A side (w / 14 * (h / 14))
      = A.downscaled side (w / 14 * (h / 14)) := fun side => if_pos hbudget
  refine ⟨_, _, (planResize_eq A hw hh).trans (if_pos ?_)⟩
  rw [hside, hside]
  by_contra hpos
  rw [not_or, Nat.not_le, Nat.not_le] at hpos
  obtain ⟨hw', hh'⟩ := gridSide_pos hA hw hh (by rw [hside]; exact hpos.1)
    (by rw [hside]; exact hpos.2)
  rw [hside] at hw' hh'
  omega

end

/-- **Every plan can be used, and within the budget its sides are the next multiples of 28.** -/
theorem plan_well_defined {A : Arithmetic} (hA : A.Exact) {w h : Nat} (hw : 1 ≤ w) (hh : 1 ≤ h) :
    (∀ plan, planResize A w h = .ok plan → Usable plan ∧
      (w / 14 * (h / 14) ≤ 25600 →
        IsLeast {m | 28 ∣ m ∧ w ≤ m} plan.dst_w ∧ IsLeast {m | 28 ∣ m ∧ h ≤ m} plan.dst_h)) ∧
    (∀ fl e, summarize A fl w h ≠ .error (.division e)) ∧
    (∀ fl plan, planResize A w h = .ok plan → ∃ px, plan.minResolvableObjectPxSrc fl = .ok px) ∧
    (w / 14 * (h / 14) > 25600 →
      A.downscaled w (w / 14 * (h / 14)) = 0 ∨ A.downscaled h (w / 14 * (h / 14)) = 0 →
      ∃ n_patches_w n_patches_h,
        planResize A w h = .error (.tooManyPatches w h n_patches_w n_patches_h)) := by
  have hdivide : ∀ fl plan, planResize A w h = .ok plan →
      ∃ px, plan.minResolvableObjectPxSrc fl = .ok px := by
    intro fl plan hplan
    exact ⟨_, if_neg (planResize_usable hA hw hh hplan).scale_pos.ne'⟩
  refine ⟨fun plan hplan => ⟨planResize_usable hA hw hh hplan, fun hfits => ?_⟩, fun fl e hs => ?_,
    hdivide, tooManyPatches_of_side_lost hA hw hh⟩
  · have hside : ∀ side, gridSide A side (w / 14 * (h / 14)) = side :=
      fun side => if_neg (Nat.not_lt.mpr hfits)
    rw [planResize_eq A hw hh, hside, hside] at hplan
    obtain ⟨-, hplan⟩ := Checks.ite_error_ok_eq_ok.mp hplan
    rw [← hplan]
    exact ⟨isLeast_gridCeil w, isLeast_gridCeil h⟩
  · unfold summarize at hs
    cases hplan : planResize A w h with
    | error e => simp [hplan] at hs
    | ok plan =>
      obtain ⟨px, hpx⟩ := hdivide fl plan hplan
      simp [hplan, hpx] at hs

/-- A panorama, downscaled. -/
theorem plan_well_defined_panorama :
    Usable ⟨9000, 900, 7112, 728, 508, 52, 6604, 7112 / 9000⟩ := by
  have hplan : planResize .exact 9000 900
      = .ok ⟨9000, 900, 7112, 728, 508, 52, 6604, 7112 / 9000⟩ := by decide +kernel
  exact ((plan_well_defined Arithmetic.exact_exact (by decide) (by decide)).1 _ hplan).1

end LocateAnything.Worker
