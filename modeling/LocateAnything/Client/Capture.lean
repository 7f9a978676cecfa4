import LocateAnything.Edge.Acceptance
import LocateAnything.Lib.Binary64
import Mathlib.Data.Rat.Floor
import Mathlib.Tactic.FieldSimp
import Mathlib.Tactic.Positivity

/-!
# `reference_client.py`: the size of a frame

`capture_thread` scales a frame down to the `max_image_dim` of the capabilities, so that the
server does not have to refuse it. The factor is a float, and so is its product with a side;
`int` cuts what is behind the point. Two roundings and a cut might lead anywhere: over the
cap, and the server refuses every frame of the session, or below it by more than one would
notice. `resize_fits` says that neither happens. A side may lose its last pixel, where the
exact side is whole (`scaled_cases`), and never gains one.

The reason is the distance between quotients. The exact side is a fraction with the longest
side below the line, so it is a whole number or at least that fraction's unit away from one;
the float is nearer to it than that (`abs_scale_sub_lt`), as long as the sides are of a size
that images have. Hence the cut of the float is the cut of the exact side, but for whole
numbers that the float may fall short of.
-/

set_option autoImplicit false

namespace LocateAnything.Client

open Binary64

/-- `int(side * scale)`, where `scale = max_dim / longest`. Both the quotient and the product
    are rounded. -/
def scaled (max_dim longest side : Nat) : Nat := ⌊double (side * double (max_dim / longest))⌋₊

/-- The width and the height that `capture_thread` queues a frame with. A frame within the cap
    is left alone. -/
def resize (max_dim w h : Nat) : Nat × Nat :=
  if max w h > max_dim then (scaled max_dim (max w h) w, scaled max_dim (max w h) h) else (w, h)

section Scaled
variable {max_dim longest side : Nat}

/-- The two roundings together are off by less than the distance from a fraction with this
    denominator to the nearest whole number other than itself. -/
theorem abs_scale_sub_lt (hside : side ≤ longest) (hpos : 0 < longest)
    (hbound : max_dim * longest < 2 ^ 51) :
    |double (side * double (max_dim / longest)) - (side * max_dim : ℕ) / longest| <
      1 / (longest : ℚ) := by
  have hl : (0 : ℚ) < longest := by exact_mod_cast hpos
  have hexact : (side : ℚ) * (max_dim / longest) = (side * max_dim : ℕ) / longest := by
    push_cast
    ring
  have hle : ((side * max_dim : ℕ) : ℚ) / longest ≤ max_dim := by
    rw [div_le_iff₀ hl, mul_comm (max_dim : ℚ)]
    exact_mod_cast Nat.mul_le_mul_right max_dim hside
  have hnonneg : 0 ≤ ((side * max_dim : ℕ) : ℚ) / longest := by positivity
  have herr := abs_double_mul_double_sub_le (side : ℚ) (max_dim / longest)
  rw [hexact, abs_of_nonneg hnonneg] at herr
  refine herr.trans_lt ?_
  have hb : (max_dim : ℚ) * longest < 2 ^ 51 := by exact_mod_cast hbound
  rw [div_lt_div_iff₀ (by norm_num) hl]
  calc ((side * max_dim : ℕ) : ℚ) / longest * longest
      ≤ max_dim * longest := mul_le_mul_of_nonneg_right hle hl.le
    _ < 1 * 2 ^ 51 := by linarith

/-- **A side is scaled exactly**, or is a pixel short of a whole number. -/
theorem scaled_cases (hside : side ≤ longest) (hpos : 0 < longest)
    (hbound : max_dim * longest < 2 ^ 51) :
    scaled max_dim longest side = side * max_dim / longest ∨
      longest ∣ side * max_dim ∧
        scaled max_dim longest side + 1 = side * max_dim / longest := by
  have habs := abs_lt.mp (abs_scale_sub_lt hside hpos hbound)
  unfold scaled
  generalize double (side * double (max_dim / longest)) = x at habs
  generalize side * max_dim = n at habs
  have hl : (0 : ℚ) < longest := by exact_mod_cast hpos
  have hq : (n : ℚ) / longest = (n / longest : ℕ) + (n % longest : ℕ) / (longest : ℚ) := by
    have hn : (n : ℚ) = longest * (n / longest : ℕ) + (n % longest : ℕ) := by
      exact_mod_cast (Nat.div_add_mod n longest).symm
    rw [hn]
    field_simp
  have hmod := Nat.mod_lt n hpos
  rw [hq] at habs
  rcases Nat.eq_zero_or_pos (n % longest) with hr | hr
  · -- the exact side is whole: `int` may fall short of it
    rw [hr, Nat.cast_zero, zero_div, add_zero] at habs
    have hone : 1 / (longest : ℚ) ≤ 1 := by
      rw [div_le_one hl]
      exact_mod_cast hpos
    rcases Nat.eq_zero_or_pos (n / longest) with hk | hk
    · left
      rw [hk, Nat.cast_zero] at habs
      rw [hk, Nat.floor_eq_zero]
      linarith
    have hk' : (1 : ℚ) ≤ (n / longest : ℕ) := by exact_mod_cast hk
    rcases le_or_gt ((n / longest : ℕ) : ℚ) x with hx | hx
    · left
      rw [Nat.floor_eq_iff (by linarith)]
      constructor <;> linarith
    · right
      refine ⟨Nat.dvd_of_mod_eq_zero hr, ?_⟩
      have hfloor : ⌊x⌋₊ = n / longest - 1 := by
        rw [Nat.floor_eq_iff (by linarith), Nat.cast_sub hk, Nat.cast_one]
        constructor <;> linarith
      omega
  · -- it is not, by a margin the error stays below
    left
    have hlow : 1 / (longest : ℚ) ≤ (n % longest : ℕ) / longest :=
      div_le_div_of_nonneg_right (by exact_mod_cast hr) hl.le
    have hhigh : ((n % longest : ℕ) : ℚ) / longest + 1 / longest ≤ 1 := by
      rw [← add_div, div_le_one hl]
      exact_mod_cast hmod
    rw [Nat.floor_eq_iff (by linarith [Nat.cast_nonneg (α := ℚ) (n / longest)])]
    constructor <;> linarith

/-- The cap is kept: the exact side does not exceed it, and the float's cut does not exceed
    the exact side. -/
theorem scaled_le (hside : side ≤ longest) (hpos : 0 < longest)
    (hbound : max_dim * longest < 2 ^ 51) : scaled max_dim longest side ≤ max_dim := by
  have hle : side * max_dim / longest ≤ max_dim := by
    rw [Nat.div_le_iff_le_mul_add_pred hpos]
    have := Nat.mul_le_mul_right max_dim hside
    omega
  rcases scaled_cases hside hpos hbound with h | ⟨-, h⟩ <;> omega

/-- A side that has one pixel to spare does not fall below the bound. -/
theorem le_scaled {n : Nat} (hside : side ≤ longest) (hpos : 0 < longest)
    (hbound : max_dim * longest < 2 ^ 51) (hn : (n + 1) * longest ≤ side * max_dim) :
    n ≤ scaled max_dim longest side := by
  have hle : n + 1 ≤ side * max_dim / longest := (Nat.le_div_iff_mul_le hpos).mpr hn
  rcases scaled_cases hside hpos hbound with h | ⟨-, h⟩ <;> omega

end Scaled

/-- Below the token grid's own limits, only the sides' lower bound and the cap are left to check. -/
theorem checkDimensions_iff (cfg : Edge.Config) {w h : Nat} (hw : w ≤ cfg.maxImageDim)
    (hh : h ≤ cfg.maxImageDim) (hw' : w ≤ 2240) (hh' : h ≤ 2240) :
    Edge.checkDimensions cfg w h = .ok () ↔ 32 ≤ w ∧ 32 ≤ h := by
  have hpatches : w / 14 * (h / 14) ≤ 160 * 160 := Nat.mul_le_mul (by omega) (by omega)
  have hbudget : ¬ w / Edge.patchPx * (h / Edge.patchPx) > Edge.inTokenLimit :=
    Nat.not_lt.mpr hpatches
  have hgrid : ∀ side ≤ 2240, ¬ Edge.resized side / Edge.patchPx ≥ Edge.posEmbPatchCap := by
    intro side hside
    simp only [Edge.resized, Edge.llmTokenPx, Edge.patchPx, Edge.posEmbPatchCap]
    omega
  have hcap : ¬ (w > cfg.maxImageDim ∨ h > cfg.maxImageDim) := by omega
  rw [Edge.checkDimensions, if_neg hcap, if_neg hbudget,
    if_neg (not_or.mpr ⟨hgrid w hw', hgrid h hh'⟩), Checks.ite_error_eq_ok, and_iff_left rfl,
    Edge.minImageDim]
  omega

/-- The two branches of the code. -/
theorem resize_cases (max_dim w h : Nat) :
    max w h ≤ max_dim ∧ resize max_dim w h = (w, h) ∨
      max_dim < max w h ∧
        resize max_dim w h = (scaled max_dim (max w h) w, scaled max_dim (max w h) h) := by
  unfold resize
  split
  · rename_i hlt
    exact .inr ⟨hlt, rfl⟩
  · rename_i hle
    exact .inl ⟨Nat.not_lt.mp hle, rfl⟩

/-- **A frame is queued in a size the server takes**, unless it is too narrow: the cap is kept, the
    longest side loses no more than a pixel against it, and what is rejected then is rejected for a
    side below 32 pixels. -/
theorem resize_fits (cfg : Edge.Config) {max_dim w h w' h' : Nat}
    (hcap : max_dim ≤ cfg.maxImageDim) (hmax : max_dim ≤ 2240) (hw : w < 2 ^ 31) (hh : h < 2 ^ 31)
    (hresize : resize max_dim w h = (w', h')) :
    max w' h' ≤ max_dim ∧ (max_dim ≤ max w h → max_dim ≤ max w' h' + 1) ∧
      (Edge.checkDimensions cfg w' h' = .ok () ↔ 32 ≤ w' ∧ 32 ≤ h') ∧
      (max_dim < max w h → 33 * max w h ≤ min w h * max_dim →
        Edge.checkDimensions cfg w' h' = .ok ()) := by
  rcases resize_cases max_dim w h with ⟨hle, heq⟩ | ⟨hlt, heq⟩
  · obtain ⟨rfl, rfl⟩ := Prod.mk.inj (heq.symm.trans hresize)
    have hiff := checkDimensions_iff cfg (w := w) (h := h) (by omega) (by omega) (by omega)
      (by omega)
    exact ⟨hle, by omega, hiff, by omega⟩
  · obtain ⟨rfl, rfl⟩ := Prod.mk.inj (heq.symm.trans hresize)
    have hpos : 0 < max w h := by omega
    have hbound : max_dim * max w h < 2 ^ 51 := by
      calc max_dim * max w h ≤ 2240 * max w h := Nat.mul_le_mul_right _ hmax
        _ < 2 ^ 51 := by omega
    have hw_le := scaled_le (Nat.le_max_left w h) hpos hbound
    have hh_le := scaled_le (Nat.le_max_right w h) hpos hbound
    have hiff := checkDimensions_iff cfg (hw_le.trans hcap) (hh_le.trans hcap) (hw_le.trans hmax)
      (hh_le.trans hmax)
    refine ⟨Nat.max_le.mpr ⟨hw_le, hh_le⟩, fun _ => ?_, hiff,
      fun _ hnarrow => hiff.mpr ⟨?_, ?_⟩⟩
    · -- the longest side is scaled to the cap, or a pixel below
      have hlongest : max_dim ≤ scaled max_dim (max w h) (max w h) + 1 := by
        have hself : max w h * max_dim / max w h = max_dim := Nat.mul_div_cancel_left _ hpos
        rcases scaled_cases (Nat.le_refl (max w h)) hpos hbound with hs | ⟨-, hs⟩ <;> omega
      rcases max_cases w h with ⟨hm, -⟩ | ⟨hm, -⟩ <;> rw [hm] at hlongest ⊢ <;> omega
    · refine le_scaled (Nat.le_max_left w h) hpos hbound (hnarrow.trans ?_)
      exact Nat.mul_le_mul_right _ (Nat.min_le_left w h)
    · refine le_scaled (Nat.le_max_right w h) hpos hbound (hnarrow.trans ?_)
      exact Nat.mul_le_mul_right _ (Nat.min_le_right w h)

/-- A frame that loses the last pixel. -/
theorem resize_fits_short :
    resize 2240 4253 3000 = (2239, 1580) ∧
      Edge.checkDimensions (Edge.sampleConfig []) 2239 1580 = .ok () := by
  have hresize : resize 2240 4253 3000 = (2239, 1580) := by decide +kernel
  refine ⟨hresize, ?_⟩
  exact (resize_fits (Edge.sampleConfig []) (by decide) (by decide) (by decide) (by decide)
    hresize).2.2.2 (by decide) (by decide)

end LocateAnything.Client
