import LocateAnything.Worker.Tiling
import Mathlib.Data.Int.ConditionallyCompleteOrder

/-!
# The tile grid

Along either axis the tiles are the padded cells between edges that go up from 0 to the size
of the image. Rounding keeps the edges in order, and apart where there are no more tiles than
pixels.

`grid` computes each tile from its row and column, with a rounded quotient, a padding and a
clamp, and nothing in that computation mentions a neighbour. So that the tiles together cover
the image is not visible in it. It becomes so once the four numbers of a tile are seen as two
axes: a tile is a pair of cells (`tileAt_eq_cell`), and for cells between monotone edges the
library has the argument (`Lib/Intervals`), both for single pixels and for objects of some
extent. What remains for this file is that the rounded edges are monotone, start at 0 and end
at the size, and to put the axes together again.

The ratio is below one half, or `grid` raises; above that a cell would reach past its
neighbours.
-/

set_option autoImplicit false

namespace LocateAnything.Worker.Tiling

open Binary64 Intervals

/-! ## One axis -/

/-- The edges that cut `size` pixels into `count` tiles. The last is the size itself, though
    the quotient is rounded at every edge on the way. -/
def edges (size count : ℤ) (i : ℕ) : ℤ := edge (size / count) i

section Axis
variable {size count : ℤ} {overlap_ratio : ℚ}

@[simp] theorem edges_zero : edges size count 0 = 0 := by simp [edges, edge]

theorem edges_count (hcount : 1 ≤ count) : edges size count count.toNat = size := by
  have hcast : ((count.toNat : ℤ) : ℚ) = count := by rw [Int.toNat_of_nonneg (by omega)]
  have hne : (count : ℚ) ≠ 0 := by exact_mod_cast (by omega : count ≠ 0)
  rw [edges, edge, hcast, mul_div_cancel₀ _ hne, roundHalfEven_intCast]

theorem base_nonneg (hsize : 1 ≤ size) (hcount : 1 ≤ count) : (0 : ℚ) ≤ size / count := by
  have hs : (0 : ℚ) ≤ size := by exact_mod_cast (by omega : 0 ≤ size)
  have hc : (0 : ℚ) ≤ count := by exact_mod_cast (by omega : 0 ≤ count)
  exact div_nonneg hs hc

/-- Rounding is monotone, so the edges never cross, even where there are more tiles than
    pixels and some coincide. -/
theorem edges_mono (hsize : 1 ≤ size) (hcount : 1 ≤ count) : Monotone (edges size count) := by
  intro i j hij
  have hcast : (((i : ℤ) : ℚ)) ≤ ((j : ℤ) : ℚ) := by exact_mod_cast hij
  exact roundHalfEven_mono (mul_le_mul_of_nonneg_right hcast (base_nonneg hsize hcount))

/-- With a quotient of at least one, two edges differ before rounding by one or more, and so
    after it. -/
theorem edges_strictMono (hcount : 1 ≤ count) (hle : count ≤ size) :
    StrictMono (edges size count) := by
  apply strictMono_nat_of_lt_succ
  intro i
  have hpos : (0 : ℚ) < count := by exact_mod_cast (by omega : 0 < count)
  rcases hle.eq_or_lt with rfl | hlt
  · -- a tile for each pixel: the edges need no rounding
    have hedge : ∀ j : ℕ, edges count count j = j := fun j => by
      rw [edges, edge, div_self hpos.ne', mul_one, roundHalfEven_intCast]
    rw [hedge, hedge]
    exact_mod_cast Nat.lt_succ_self i
  · -- the next edge is more than one pixel away, and rounding moves either one by a half at most
    have hbase : 1 < (size : ℚ) / count := (one_lt_div hpos).mpr (by exact_mod_cast hlt)
    have hthis := roundHalfEven_le ((i : ℤ) * ((size : ℚ) / count))
    have hnext := le_roundHalfEven (((i + 1 : ℕ) : ℤ) * ((size : ℚ) / count))
    have hlt : (edges size count i : ℚ) < edges size count (i + 1) := by
      simp only [edges, edge]
      push_cast at hthis hnext ⊢
      linarith
    exact_mod_cast hlt

theorem pad_nonneg {base : ℚ} (hbase : 0 ≤ base) (hoverlap : 0 ≤ overlap_ratio) :
    0 ≤ pad base overlap_ratio := by
  have hmono := roundHalfEven_mono (mul_nonneg hbase hoverlap)
  rwa [roundHalfEven_zero] at hmono

/-- An object may have rational coordinates, though the cells have integer ones. It may extend
    over twice the padding, once on either side of an edge. -/
theorem exists_cell_of_object {pad : ℤ} {u v : ℚ} (hcount : 1 ≤ count) (hpad : 0 ≤ pad)
    (hu : 0 ≤ u) (hv : v ≤ size) (huv : v - u ≤ 2 * pad) :
    ∃ i < count.toNat, ((cellLo (edges size count) pad i : ℤ) : ℚ) ≤ u ∧
      v ≤ ((cellHi (edges size count) count.toNat pad i : ℤ) : ℚ) := by
  let e : ℕ → ℚ := fun i => edges size count i
  have hpos : 0 < count.toNat := by omega
  have hpad' : (0 : ℚ) ≤ pad := by exact_mod_cast hpad
  have hfirst : e 0 ≤ u := by simpa [e] using hu
  have hlast : v ≤ e count.toNat := by simpa [e, edges_count hcount] using hv
  obtain ⟨i, hi, hlo, hhi⟩ := exists_padded_cell hpos hpad' hfirst hlast (by linarith)
  refine ⟨i, hi, ?_, ?_⟩
  · simpa [cellLo, e] using hlo
  · simpa [cellHi, e] using hhi

end Axis

/-! ## Both axes -/

/-- The tile lies in the image; it may be empty. -/
def Tile.Within (t : Tile) (image_width image_height : ℤ) : Prop :=
  0 ≤ t.x0 ∧ t.x0 ≤ t.x1 ∧ t.x1 ≤ image_width ∧ 0 ≤ t.y0 ∧ t.y0 ≤ t.y1 ∧ t.y1 ≤ image_height

/-- The pixel in column `x` and row `y` is in the tile. The right and the lower edge belong to
    the next. -/
def Tile.Holds (t : Tile) (x y : ℤ) : Prop :=
  (t.x0 ≤ x ∧ x < t.x1) ∧ t.y0 ≤ y ∧ y < t.y1

/-- The box lies between two corners, neither of its axes inverted. Stated for corners and not
    for a tile, because it is used of the image, of a tile and of the tile's own coordinates.
    -/
def Box.Within (b : Box) (x0 y0 x1 y1 : ℚ) : Prop :=
  (x0 ≤ b.x1 ∧ b.x1 ≤ b.x2 ∧ b.x2 ≤ x1) ∧ y0 ≤ b.y1 ∧ b.y1 ≤ b.y2 ∧ b.y2 ≤ y1

/-- The coordinates of a box in the crop that the tile is: what the model is shown, and what
    `remapBoxToGlobal` has to undo. -/
def Box.toLocal (b : Box) (t : Tile) : Box :=
  ⟨b.x1 - t.x0, b.y1 - t.y0, b.x2 - t.x0, b.y2 - t.y0⟩

/-- A box that is found in a crop is put back where it was. -/
theorem remapBoxToGlobal_toLocal (b : Box) (t : Tile) : remapBoxToGlobal (b.toLocal t) t = b := by
  simp [remapBoxToGlobal, Box.toLocal]

theorem Box.Within.toLocal {b : Box} {t : Tile} (h : b.Within t.x0 t.y0 t.x1 t.y1) :
    (b.toLocal t).Within 0 0 t.width t.height := by
  obtain ⟨⟨hx1, hx, hx2⟩, hy1, hy, hy2⟩ := h
  simp only [Box.Within, Box.toLocal, Tile.width, Tile.height, Int.cast_sub]
  exact ⟨⟨sub_nonneg.mpr hx1, sub_le_sub_right hx _, sub_le_sub_right hx2 _⟩,
    sub_nonneg.mpr hy1, sub_le_sub_right hy _, sub_le_sub_right hy2 _⟩

/-- The cell in row `r` and column `c`: a tile as a pair of one-dimensional cells. -/
def cell (image_width image_height rows cols pad_x pad_y : ℤ) (r c : ℕ) : Tile where
  row := r
  col := c
  x0 := cellLo (edges image_width cols) pad_x c
  y0 := cellLo (edges image_height rows) pad_y r
  x1 := cellHi (edges image_width cols) cols.toNat pad_x c
  y1 := cellHi (edges image_height rows) rows.toNat pad_y r

section Grid
variable {image_width image_height rows cols : ℤ}

/-- The source clamps a tile to the image, the cells are clamped to the outermost edges; these
    are the image's. -/
theorem tileAt_eq_cell (hrows : 1 ≤ rows) (hcols : 1 ≤ cols) (pad_x pad_y : ℤ) (r c : ℕ) :
    tileAt image_width image_height (image_width / cols) (image_height / rows) pad_x pad_y r c =
      cell image_width image_height rows cols pad_x pad_y r c := by
  simp only [cell, cellLo, cellHi, edges_zero, edges_count hrows, edges_count hcols]
  simp [tileAt, edges]

/-- What `grid` returns where it does not raise, as a set: the order of the tiles plays no
    part here. -/
theorem exists_grid {overlap_ratio : ℚ} (hrows : 1 ≤ rows) (hcols : 1 ≤ cols)
    (hoverlap : 0 ≤ overlap_ratio) (hhalf : overlap_ratio < 1 / 2) :
    ∃ tiles, grid image_width image_height rows cols overlap_ratio = .ok tiles ∧
      ∀ t, t ∈ tiles ↔ ∃ r < rows.toNat, ∃ c < cols.toNat,
        cell image_width image_height rows cols (pad (image_width / cols) overlap_ratio)
          (pad (image_height / rows) overlap_ratio) r c = t := by
  rw [grid, if_neg (by omega), if_neg (not_not.mpr ⟨hoverlap, hhalf⟩)]
  refine ⟨_, rfl, fun t => ?_⟩
  simp only [List.mem_flatMap, List.mem_map, List.mem_range, tileAt_eq_cell hrows hcols]

section
variable {pad_x pad_y : ℤ} {r c : ℕ} (hwidth : 1 ≤ image_width) (hheight : 1 ≤ image_height)
  (hrows : 1 ≤ rows) (hcols : 1 ≤ cols) (hpadx : 0 ≤ pad_x) (hpady : 0 ≤ pad_y)
include hrows hcols hpadx hpady

theorem cell_positive (hr : r < rows.toNat) (hc : c < cols.toNat) (hle : cols ≤ image_width)
    (hle' : rows ≤ image_height) :
    0 < (cell image_width image_height rows cols pad_x pad_y r c).width ∧
      0 < (cell image_width image_height rows cols pad_x pad_y r c).height :=
  ⟨sub_pos.mpr (cellLo_lt_cellHi (edges_strictMono hcols hle) hpadx hc),
    sub_pos.mpr (cellLo_lt_cellHi (edges_strictMono hrows hle') hpady hr)⟩

theorem exists_cell_object {b : Box} (hb : b.Within 0 0 image_width image_height)
    (hbx : b.x2 - b.x1 ≤ 2 * pad_x) (hby : b.y2 - b.y1 ≤ 2 * pad_y) :
    ∃ r < rows.toNat, ∃ c < cols.toNat,
      let t := cell image_width image_height rows cols pad_x pad_y r c
      b.Within t.x0 t.y0 t.x1 t.y1 := by
  obtain ⟨⟨hx1, hx, hx2⟩, hy1, hy, hy2⟩ := hb
  obtain ⟨c, hc, hclo, hchi⟩ := exists_cell_of_object hcols hpadx hx1 hx2 hbx
  obtain ⟨r, hr, hrlo, hrhi⟩ := exists_cell_of_object hrows hpady hy1 hy2 hby
  exact ⟨r, hr, c, hc, ⟨hclo, hx, hchi⟩, hrlo, hy, hrhi⟩

include hwidth hheight

theorem cell_within (hr : r < rows.toNat) (hc : c < cols.toNat) :
    (cell image_width image_height rows cols pad_x pad_y r c).Within image_width image_height := by
  have hx : 0 ≤ cellLo (edges image_width cols) pad_x c :=
    edges_zero.symm.trans_le first_le_cellLo
  have hx' : cellHi (edges image_width cols) cols.toNat pad_x c ≤ image_width :=
    cellHi_le_last.trans_eq (edges_count hcols)
  have hy : 0 ≤ cellLo (edges image_height rows) pad_y r :=
    edges_zero.symm.trans_le first_le_cellLo
  have hy' : cellHi (edges image_height rows) rows.toNat pad_y r ≤ image_height :=
    cellHi_le_last.trans_eq (edges_count hrows)
  exact ⟨hx, cellLo_le_cellHi (edges_mono hwidth hcols) hpadx hc, hx',
    hy, cellLo_le_cellHi (edges_mono hheight hrows) hpady hr, hy'⟩

theorem exists_cell_holds {x y : ℤ} (hx : 0 ≤ x) (hx' : x < image_width) (hy : 0 ≤ y)
    (hy' : y < image_height) :
    ∃ r < rows.toNat, ∃ c < cols.toNat,
      (cell image_width image_height rows cols pad_x pad_y r c).Holds x y := by
  obtain ⟨c, hc, hcell⟩ := exists_mem_cell (edges_mono hwidth hcols) hpadx
    (edges_zero.trans_le hx) (hx'.trans_eq (edges_count hcols).symm)
  obtain ⟨r, hr, hcell'⟩ := exists_mem_cell (edges_mono hheight hrows) hpady
    (edges_zero.trans_le hy) (hy'.trans_eq (edges_count hrows).symm)
  exact ⟨r, hr, c, hc, hcell, hcell'⟩

end

/-- **The grid loses nothing**: its tiles lie in the image, cover it, hold every object that is no
    larger than twice the padding, and are not empty if there are no more of them than pixels. -/
theorem grid_loses_nothing {overlap_ratio : ℚ} (hwidth : 1 ≤ image_width)
    (hheight : 1 ≤ image_height) (hrows : 1 ≤ rows) (hcols : 1 ≤ cols)
    (hoverlap : 0 ≤ overlap_ratio) (hhalf : overlap_ratio < 1 / 2) :
    ∃ tiles, grid image_width image_height rows cols overlap_ratio = .ok tiles ∧
      (∀ t ∈ tiles, t.Within image_width image_height) ∧
      (∀ x y, 0 ≤ x → x < image_width → 0 ≤ y → y < image_height → ∃ t ∈ tiles, t.Holds x y) ∧
      (∀ b : Box, b.Within 0 0 image_width image_height →
        b.x2 - b.x1 ≤ 2 * pad (image_width / cols) overlap_ratio →
        b.y2 - b.y1 ≤ 2 * pad (image_height / rows) overlap_ratio →
        ∃ t ∈ tiles, b.Within t.x0 t.y0 t.x1 t.y1 ∧
          (b.toLocal t).Within 0 0 t.width t.height ∧ remapBoxToGlobal (b.toLocal t) t = b) ∧
      (cols ≤ image_width → rows ≤ image_height → ∀ t ∈ tiles, 0 < t.width ∧ 0 < t.height) := by
  have hpadx := pad_nonneg (base_nonneg hwidth hcols) hoverlap
  have hpady := pad_nonneg (base_nonneg hheight hrows) hoverlap
  obtain ⟨tiles, hgrid, hmem⟩ := exists_grid hrows hcols hoverlap hhalf
  refine ⟨tiles, hgrid, ?within, ?pixel, ?object, ?positive⟩
  case within =>
    intro t ht
    obtain ⟨r, hr, c, hc, rfl⟩ := (hmem t).mp ht
    exact cell_within hwidth hheight hrows hcols hpadx hpady hr hc
  case pixel =>
    intro x y hx hx' hy hy'
    obtain ⟨r, hr, c, hc, hholds⟩ :=
      exists_cell_holds hwidth hheight hrows hcols hpadx hpady hx hx' hy hy'
    exact ⟨_, (hmem _).mpr ⟨r, hr, c, hc, rfl⟩, hholds⟩
  case object =>
    intro b hb hbx hby
    obtain ⟨r, hr, c, hc, hwithin⟩ := exists_cell_object hrows hcols hpadx hpady hb hbx hby
    exact ⟨_, (hmem _).mpr ⟨r, hr, c, hc, rfl⟩, hwithin, hwithin.toLocal,
      remapBoxToGlobal_toLocal b _⟩
  case positive =>
    intro hle hle' t ht
    obtain ⟨r, hr, c, hc, rfl⟩ := (hmem t).mp ht
    exact cell_positive hrows hcols hpadx hpady hr hc hle hle'

/-- A frame of 4000 × 3000 in three rows and four columns. -/
theorem grid_loses_nothing_frame :
    ∃ tiles, grid 4000 3000 3 4 (3 / 20) = .ok tiles ∧ (∃ t ∈ tiles, t.Holds 3999 2999) ∧
      ∀ t ∈ tiles, 0 < t.width ∧ 0 < t.height := by
  have hwidth : (1 : ℤ) ≤ 4000 := by norm_num
  have hheight : (1 : ℤ) ≤ 3000 := by norm_num
  have hrows : (1 : ℤ) ≤ 3 := by norm_num
  have hcols : (1 : ℤ) ≤ 4 := by norm_num
  have hoverlap : (0 : ℚ) ≤ 3 / 20 := by norm_num
  obtain ⟨tiles, hgrid, -, hpixel, -, hpositive⟩ :=
    grid_loses_nothing hwidth hheight hrows hcols hoverlap (by norm_num)
  exact ⟨tiles, hgrid, hpixel 3999 2999 (by norm_num) (by norm_num) (by norm_num) (by norm_num),
    hpositive (by norm_num) (by norm_num)⟩

end Grid

end LocateAnything.Worker.Tiling
