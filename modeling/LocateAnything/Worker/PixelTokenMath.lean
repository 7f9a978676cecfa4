import LocateAnything.Lib.Binary64
import Mathlib.Order.Bounds.Basic

/-!
# `worker/pixel_token_math.py`

The resize plan of an image: a uniform downscale if it has too many patches, then the next
multiple of 28 on each axis. What the server accepts is never downscaled
(`planResize_of_fits`).

28 is two patches of 14 pixels, because the model merges two by two patches into one token; a
side that is no multiple of it would leave a row of patches without partners. The two
computations on floats are a parameter (`Arithmetic`). One decides how far to scale down, the
other only describes the plan, and whatever they come to, the target is on the grid and below
the limit of positions (`planResize_bounds`).
-/

set_option autoImplicit false

namespace LocateAnything.Worker

/-- `PATCH_SIZE`, `MERGE_KERNEL`, `LLM_TOKEN_PX`, `IN_TOKEN_LIMIT`, `MAX_PATCHES_PER_SIDE` -/
def patchSize : Nat := 14
def mergeKernel : Nat := 2
def llmTokenPx : Nat := patchSize * mergeKernel
def inTokenLimit : Nat := 25600
def maxPatchesPerSide : Nat := 512

structure ImageResize where
  src_w : Nat
  src_h : Nat
  dst_w : Nat
  dst_h : Nat
  n_patches_w : Nat
  n_patches_h : Nat
  n_llm_tokens : Nat
  scale : ℚ
  deriving DecidableEq

/-- The `ValueError`s of `plan_resize`. -/
inductive PlanError where
  | notPositive (width height : Nat)
  | tooManyPatches (width height n_patches_w n_patches_h : Nat)
  deriving DecidableEq

/-- The two float computations of a plan. They are apart from it so that a plan can be taken
    over exact arithmetic as well as over the machine's. -/
structure Arithmetic where
  /-- `int(side * math.sqrt(IN_TOKEN_LIMIT / total_patches))` -/
  downscaled : (side total_patches : Nat) → Nat
  /-- `dst_w / width` -/
  quotient : (dst_w width : Nat) → ℚ

/-- As CPython computes them. -/
def Arithmetic.float : Arithmetic where
  downscaled side total_patches :=
    let scale := Binary64.sqrt (Binary64.double (inTokenLimit / total_patches))
    ⌊Binary64.double (side * scale)⌋₊
  quotient dst_w width := Binary64.double (dst_w / width)

/-- `((side + grid - 1) // grid) * grid` -/
def gridCeil (side : Nat) : Nat := (side + llmTokenPx - 1) / llmTokenPx * llmTokenPx

/-- `plan_resize`. The check of the positions is behind the downscale: rounding up may add to
    a side again, and a long and narrow image keeps its length. -/
def planResize (A : Arithmetic) (width height : Nat) : Except PlanError ImageResize :=
  if width = 0 ∨ height = 0 then .error (.notPositive width height)
  else
    let total_patches := width / patchSize * (height / patchSize)
    let w := if total_patches > inTokenLimit then A.downscaled width total_patches else width
    let h := if total_patches > inTokenLimit then A.downscaled height total_patches else height
    let dst_w := gridCeil w
    let dst_h := gridCeil h
    let n_patches_w := dst_w / patchSize
    let n_patches_h := dst_h / patchSize
    if n_patches_w ≥ maxPatchesPerSide ∨ n_patches_h ≥ maxPatchesPerSide then
      .error (.tooManyPatches width height n_patches_w n_patches_h)
    else
      .ok
        { src_w := width, src_h := height, dst_w, dst_h, n_patches_w, n_patches_h
          n_llm_tokens := n_patches_w * n_patches_h / (mergeKernel * mergeKernel)
          scale := A.quotient dst_w width }

/-- Python's `ZeroDivisionError`. -/
inductive ZeroDivision where
  | float
  deriving DecidableEq

/-- `min_resolvable_object_px_src`; `fl` rounds a quotient to what a float holds. -/
def ImageResize.minResolvableObjectPxSrc (fl : ℚ → ℚ) (plan : ImageResize) :
    Except ZeroDivision ℚ :=
  if plan.scale = 0 then .error .float else .ok (fl (llmTokenPx / plan.scale))

/-- The dict of `summarize`. -/
structure Summary where
  plan : ImageResize
  min_resolvable_object_px_src : ℚ
  patch_px : Nat
  llm_token_px_post_merger : Nat
  in_token_limit : Nat
  max_llm_tokens_per_image : Nat

/-- What `summarize` raises. -/
inductive SummaryError where
  | plan (e : PlanError)
  | division (e : ZeroDivision)
  deriving DecidableEq

/-- `summarize` -/
def summarize (A : Arithmetic) (fl : ℚ → ℚ) (width height : Nat) :
    Except SummaryError Summary :=
  match planResize A width height with
  | .error e => .error (.plan e)
  | .ok plan =>
    match plan.minResolvableObjectPxSrc fl with
    | .error e => .error (.division e)
    | .ok px =>
      .ok
        { plan
          min_resolvable_object_px_src := fl (Binary64.roundHalfEven (px * 10 ^ 2) / 10 ^ 2)
          patch_px := patchSize
          llm_token_px_post_merger := llmTokenPx
          in_token_limit := inTokenLimit
          max_llm_tokens_per_image := inTokenLimit / (mergeKernel * mergeKernel) }

/-! ## The grid -/

theorem llmTokenPx_eq : llmTokenPx = 28 := rfl

/-- **`gridCeil` is the least multiple of 28 not below the side.** -/
theorem gridCeil_least (side : Nat) :
    28 ∣ gridCeil side ∧ side ≤ gridCeil side ∧
      ∀ m, 28 ∣ m → side ≤ m → gridCeil side ≤ m := by
  unfold gridCeil
  rw [llmTokenPx_eq]
  refine ⟨Dvd.intro_left _ rfl, by omega, ?_⟩
  rintro m ⟨k, rfl⟩ hm
  have : (side + 28 - 1) / 28 ≤ k := by omega
  calc (side + 28 - 1) / 28 * 28 ≤ k * 28 := Nat.mul_le_mul_right 28 this
    _ = 28 * k := Nat.mul_comm k 28

theorem isLeast_gridCeil (side : Nat) : IsLeast {m | 28 ∣ m ∧ side ≤ m} (gridCeil side) := by
  obtain ⟨hdvd, hle, hleast⟩ := gridCeil_least side
  exact ⟨⟨hdvd, hle⟩, fun m hm => hleast m hm.1 hm.2⟩

theorem tokens_eq {a b : Nat} (ha : 28 ∣ a) (hb : 28 ∣ b) :
    a / 14 * (b / 14) / 4 = a / 28 * (b / 28) := by
  obtain ⟨k, rfl⟩ := ha
  obtain ⟨l, rfl⟩ := hb
  have hk : 28 * k / 14 = 2 * k := by omega
  have hl : 28 * l / 14 = 2 * l := by omega
  rw [hk, hl, Nat.mul_div_cancel_left k (by omega), Nat.mul_div_cancel_left l (by omega),
    show 2 * k * (2 * l) = 4 * (k * l) by ring, Nat.mul_div_cancel_left _ (by omega)]

/-- A plan is for an image that has pixels, and has fewer patches than positions. -/
theorem planResize_bounds {A : Arithmetic} {w h : Nat} {plan : ImageResize}
    (hplan : planResize A w h = .ok plan) :
    0 < w ∧ 0 < h ∧ plan.dst_w / 14 < 512 ∧ plan.dst_h / 14 < 512 ∧
      plan.n_llm_tokens = plan.dst_w / 14 * (plan.dst_h / 14) / 4 := by
  unfold planResize at hplan
  by_cases hzero : w = 0 ∨ h = 0
  · rw [if_pos hzero] at hplan
    exact absurd hplan (by simp)
  rw [if_neg hzero] at hplan
  dsimp only at hplan
  -- the sides that are laid on the grid, downscaled or not
  generalize (if w / patchSize * (h / patchSize) > inTokenLimit then
    A.downscaled w (w / patchSize * (h / patchSize)) else w) = w' at hplan
  generalize (if w / patchSize * (h / patchSize) > inTokenLimit then
    A.downscaled h (w / patchSize * (h / patchSize)) else h) = h' at hplan
  split at hplan
  · exact absurd hplan (by simp)
  rename_i hpos
  rw [not_or] at hpos
  obtain rfl := Except.ok.inj hplan
  exact ⟨by omega, by omega, Nat.not_le.mp hpos.1, Nat.not_le.mp hpos.2, rfl⟩

/-- **Within the budget there is a plan, and no downscale.** -/
theorem planResize_of_fits (A : Arithmetic) {w h : Nat} (hw : 0 < w) (hh : 0 < h)
    (hpatches : w / 14 * (h / 14) ≤ 25600) (hposw : gridCeil w / 14 < 512)
    (hposh : gridCeil h / 14 < 512) :
    planResize A w h = .ok
      { src_w := w, src_h := h, dst_w := gridCeil w, dst_h := gridCeil h
        n_patches_w := gridCeil w / 14, n_patches_h := gridCeil h / 14
        n_llm_tokens := gridCeil w / 28 * (gridCeil h / 28)
        scale := A.quotient (gridCeil w) w } := by
  have hzero : ¬ (w = 0 ∨ h = 0) := by omega
  have hbudget : ¬ w / patchSize * (h / patchSize) > inTokenLimit := Nat.not_lt.mpr hpatches
  have hpos : ¬ (gridCeil w / patchSize ≥ maxPatchesPerSide ∨
      gridCeil h / patchSize ≥ maxPatchesPerSide) := by
    rw [not_or]
    exact ⟨Nat.not_le.mpr hposw, Nat.not_le.mpr hposh⟩
  have htokens := tokens_eq (gridCeil_least w).1 (gridCeil_least h).1
  simp only [planResize, if_neg hzero, if_neg hbudget, if_neg hpos]
  rw [← htokens]
  rfl

end LocateAnything.Worker
