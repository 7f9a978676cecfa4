import LocateAnything.Lib.Binary64
import LocateAnything.Lib.Intervals
import LocateAnything.Text
import Mathlib.Data.List.Sort
import Mathlib.Data.Set.Prod
import Mathlib.Order.CompletePartialOrder

/-!
# `worker/tiling.py`

A frame is cut into overlapping tiles, the boxes found in the tiles are moved back into the
frame, and of boxes that overlap too much only the largest is kept. Coordinates and ratios are
rational numbers, and every float operation is exact.

The rounding to pixels stays: `int(round(…))` is part of what the code decides, and where two
tiles meet depends on it. The edges are rounded alike for both neighbours, so nothing is lost
between tiles, however the sides divide.

The boxes come from the model or from a client and need not be in order. `area`, `inter` and
`iou` clamp at zero instead of refusing; in the terms of the library a box is a pair of
intervals, and an inverted one has no length.
-/

set_option autoImplicit false

namespace LocateAnything.Worker.Tiling

open Intervals

/-! ## Tiles -/

/-- A crop; `x1` and `y1` are exclusive. -/
structure Tile where
  row : ℤ
  col : ℤ
  x0 : ℤ
  y0 : ℤ
  x1 : ℤ
  y1 : ℤ
  deriving DecidableEq

def Tile.width (t : Tile) : ℤ := t.x1 - t.x0
def Tile.height (t : Tile) : ℤ := t.y1 - t.y0

/-- What `grid` raises. -/
inductive GridError where
  | noTiles
  | overlapRatio
  deriving DecidableEq

def GridError.message : GridError → Str
  | noTiles => "rows and cols must be ≥ 1".toList
  | overlapRatio => "overlap_ratio must be in [0.0, 0.5)".toList

/-- `int(round(i * base))`: where the tile `i` begins, without its padding. -/
def edge (base : ℚ) (i : ℤ) : ℤ := Binary64.roundHalfEven (i * base)

/-- `int(round(base * overlap_ratio))` -/
def pad (base overlap_ratio : ℚ) : ℤ := Binary64.roundHalfEven (base * overlap_ratio)

/-- The tile in row `r` and column `c`. -/
def tileAt (image_width image_height : ℤ) (tile_w_base tile_h_base : ℚ) (pad_x pad_y r c : ℤ) :
    Tile where
  row := r
  col := c
  x0 := max 0 (edge tile_w_base c - pad_x)
  y0 := max 0 (edge tile_h_base r - pad_y)
  x1 := min image_width (edge tile_w_base (c + 1) + pad_x)
  y1 := min image_height (edge tile_h_base (r + 1) + pad_y)

/-- `grid` -/
def grid (image_width image_height rows cols : ℤ) (overlap_ratio : ℚ) :
    Except GridError (List Tile) :=
  if rows < 1 ∨ cols < 1 then .error .noTiles
  else if ¬ (0 ≤ overlap_ratio ∧ overlap_ratio < 1 / 2) then .error .overlapRatio
  else
    let tile_w_base : ℚ := image_width / cols
    let tile_h_base : ℚ := image_height / rows
    let pad_x := pad tile_w_base overlap_ratio
    let pad_y := pad tile_h_base overlap_ratio
    .ok ((List.range rows.toNat).flatMap fun (r : ℕ) => (List.range cols.toNat).map fun (c : ℕ) =>
      tileAt image_width image_height tile_w_base tile_h_base pad_x pad_y r c)

/-! ## Boxes -/

/-- `[x1, y1, x2, y2]` -/
structure Box where
  x1 : ℚ
  y1 : ℚ
  x2 : ℚ
  y2 : ℚ
  deriving DecidableEq

/-- `remap_box_to_global` -/
def remapBoxToGlobal (box : Box) (tile : Tile) : Box :=
  ⟨tile.x0 + box.x1, tile.y0 + box.y1, tile.x0 + box.x2, tile.y0 + box.y2⟩

/-- The closure `area` of `nms`, and the areas in `iou`. -/
def area (b : Box) : ℚ := max 0 (b.x2 - b.x1) * max 0 (b.y2 - b.y1)

/-- `inter` -/
def inter (a b : Box) : ℚ :=
  max 0 (min a.x2 b.x2 - max a.x1 b.x1) * max 0 (min a.y2 b.y2 - max a.y1 b.y1)

/-- `union` -/
def union (a b : Box) : ℚ := area a + area b - inter a b

/-- `iou` -/
def iou (a b : Box) : ℚ :=
  if inter a b ≤ 0 then 0
  else if union a b ≤ 0 then 0
  else inter a b / union a b

/-! ## Detections -/

/-- A dict with `bbox_px`, possibly `label`, and what else the client keeps in it. The rest is
    arbitrary and only handed on. -/
structure Detected (ρ : Type) where
  bbox_px : Box
  label : Option Str
  rest : ρ

section Nms
variable {ρ : Type}

/-- The loop over the detections that are kept. -/
def isDup (iou_threshold : ℚ) (label_aware : Bool) (keep : List (Detected ρ)) (b : Detected ρ) :
    Bool :=
  keep.any fun k =>
    if label_aware && b.label != k.label then false
    else decide (iou b.bbox_px k.bbox_px ≥ iou_threshold)

/-- `nms`; Python's sort is stable, also in reverse, so that of boxes with equal areas the
    first one given is looked at first. -/
def nms (iou_threshold : ℚ) (label_aware : Bool) (boxes : List (Detected ρ)) :
    List (Detected ρ) :=
  if boxes.isEmpty then []
  else
    let sorted_boxes := boxes.insertionSort fun a b => area b.bbox_px ≤ area a.bbox_px
    sorted_boxes.foldl
      (fun keep b => if isDup iou_threshold label_aware keep b then keep else keep ++ [b]) []

end Nms

/-! ## `iou` as a measure of overlap -/

/-- The points strictly inside; there are none in an inverted box. The border is left out
    since boxes that only touch have no overlap to measure. -/
def Box.interior (b : Box) : Set (ℚ × ℚ) := Set.Ioo b.x1 b.x2 ×ˢ Set.Ioo b.y1 b.y2

theorem area_eq (b : Box) : area b = length b.x1 b.x2 * length b.y1 b.y2 := rfl

theorem inter_eq (a b : Box) :
    inter a b = overlap a.x1 a.x2 b.x1 b.x2 * overlap a.y1 a.y2 b.y1 b.y2 := rfl

theorem inter_comm (a b : Box) : inter a b = inter b a := by
  rw [inter_eq, inter_eq, overlap_comm a.x1, overlap_comm a.y1]

theorem inter_le_left (a b : Box) : inter a b ≤ area a :=
  mul_le_mul (overlap_le ..) (overlap_le ..) (length_nonneg ..) (length_nonneg ..)

theorem inter_le_right (a b : Box) : inter a b ≤ area b := inter_comm a b ▸ inter_le_left b a

theorem inter_le_union (a b : Box) : inter a b ≤ union a b := by
  have ha := inter_le_left a b
  have hb := inter_le_right a b
  rw [union]
  linarith

theorem union_comm (a b : Box) : union a b = union b a := by
  rw [union, union, inter_comm, add_comm (area a)]

/-- The second early return is never taken. -/
theorem union_pos {a b : Box} (h : 0 < inter a b) : 0 < union a b :=
  h.trans_le (inter_le_union a b)

theorem iou_eq (a b : Box) : iou a b = if 0 < inter a b then inter a b / union a b else 0 := by
  unfold iou
  by_cases h : 0 < inter a b
  · rw [if_neg (not_le.mpr h), if_neg (not_le.mpr (union_pos h)), if_pos h]
  · rw [if_pos (not_lt.mp h), if_neg h]

theorem iou_comm (a b : Box) : iou a b = iou b a := by
  rw [iou_eq, iou_eq, inter_comm, union_comm]

theorem iou_nonneg (a b : Box) : 0 ≤ iou a b := by
  rw [iou_eq]
  split
  · rename_i h
    exact div_nonneg h.le (union_pos h).le
  · exact le_refl 0

theorem iou_le_one (a b : Box) : iou a b ≤ 1 := by
  rw [iou_eq]
  split
  · rename_i h
    exact (div_le_one (union_pos h)).mpr (inter_le_union a b)
  · exact zero_le_one

/-! ### Moving both boxes -/

theorem area_remap (b : Box) (t : Tile) : area (remapBoxToGlobal b t) = area b := by
  simp only [area_eq, remapBoxToGlobal, length_add]

theorem inter_remap (a b : Box) (t : Tile) :
    inter (remapBoxToGlobal a t) (remapBoxToGlobal b t) = inter a b := by
  simp only [inter_eq, remapBoxToGlobal, overlap_add]

theorem iou_remap (a b : Box) (t : Tile) :
    iou (remapBoxToGlobal a t) (remapBoxToGlobal b t) = iou a b := by
  have hunion : union (remapBoxToGlobal a t) (remapBoxToGlobal b t) = union a b := by
    rw [union, union, area_remap, area_remap, inter_remap]
  rw [iou_eq, iou_eq, inter_remap, hunion]

/-! ### Boxes apart, and equal boxes -/

theorem iou_eq_zero_of_disjoint {a b : Box} (h : Disjoint a.interior b.interior) :
    iou a b = 0 := by
  rw [iou_eq, if_neg]
  intro hpos
  -- both overlaps are positive, so there is a point inside both boxes
  have hx := pos_of_mul_pos_left hpos (length_nonneg ..)
  have hy := pos_of_mul_pos_right hpos (length_nonneg ..)
  obtain ⟨x, hxa, hxb⟩ := exists_mem_of_overlap_pos hx
  obtain ⟨y, hya, hyb⟩ := exists_mem_of_overlap_pos hy
  exact Set.disjoint_left.mp h (Set.mk_mem_prod hxa hya) (Set.mk_mem_prod hxb hyb)

/-- A box whose points are all in another one. -/
theorem within_of_inter_eq_area {a b : Box} (ha : 0 < area a) (h : inter a b = area a) :
    b.x1 ≤ a.x1 ∧ a.x2 ≤ b.x2 ∧ b.y1 ≤ a.y1 ∧ a.y2 ≤ b.y2 := by
  have hx := pos_of_mul_pos_left ha (length_nonneg ..)
  have hy := pos_of_mul_pos_right ha (length_nonneg ..)
  have hpos : 0 < inter a b := h ▸ ha
  obtain ⟨hox, hoy⟩ := (mul_eq_mul_iff_eq_and_eq_of_pos (overlap_le ..) (overlap_le ..)
    (pos_of_mul_pos_left hpos (length_nonneg ..)) hy).mp h
  obtain ⟨hx1, hx2⟩ := subset_of_overlap_eq (length_pos_iff.mp hx) hox
  obtain ⟨hy1, hy2⟩ := subset_of_overlap_eq (length_pos_iff.mp hy) hoy
  exact ⟨hx1, hx2, hy1, hy2⟩

theorem iou_self {a : Box} (ha : 0 < area a) : iou a a = 1 := by
  have hinter : inter a a = area a := by rw [inter_eq, overlap_self, overlap_self, area_eq]
  have hunion : union a a = area a := by rw [union, hinter, add_sub_cancel_right]
  rw [iou_eq, hinter, hunion, if_pos ha, div_self ha.ne']

theorem iou_eq_one_iff {a b : Box} (ha : 0 < area a) (hb : 0 < area b) :
    iou a b = 1 ↔ a = b := by
  constructor
  · intro h
    rw [iou_eq] at h
    split at h
    · rename_i hpos
      have hunion : inter a b = union a b := (div_eq_one_iff_eq (union_pos hpos).ne').mp h
      have hla := inter_le_left a b
      have hlb := inter_le_right a b
      rw [union] at hunion
      obtain ⟨hx1, hx2, hy1, hy2⟩ := within_of_inter_eq_area ha (by linarith)
      obtain ⟨hx1', hx2', hy1', hy2'⟩ :=
        within_of_inter_eq_area hb (by rw [inter_comm]; linarith)
      cases a
      cases b
      simp only [Box.mk.injEq]
      exact ⟨le_antisymm hx1' hx1, le_antisymm hy1' hy1, le_antisymm hx2 hx2',
        le_antisymm hy2 hy2'⟩
    · exact absurd h zero_ne_one
  · rintro rfl
    exact iou_self ha

/-- **`iou` measures overlap**: between 0 and 1, symmetric, the same in a tile and in the frame, 0
    for boxes that are apart, and 1 for equal boxes only. -/
theorem iou_measures_overlap (a b : Box) :
    0 ≤ iou a b ∧ iou a b ≤ 1 ∧
      (¬ inter a b ≤ 0 → union a b ≠ 0) ∧
      iou a b = iou b a ∧
      (∀ t : Tile, iou (remapBoxToGlobal a t) (remapBoxToGlobal b t) = iou a b) ∧
      (Disjoint a.interior b.interior → iou a b = 0) ∧
      (0 < area a → 0 < area b → (iou a b = 1 ↔ a = b)) :=
  ⟨iou_nonneg a b, iou_le_one a b, fun h => (union_pos (not_le.mp h)).ne', iou_comm a b,
    iou_remap a b, iou_eq_zero_of_disjoint, iou_eq_one_iff⟩

end LocateAnything.Worker.Tiling
