import Mathlib.Algebra.Order.Group.MinMax
import Mathlib.Algebra.Order.Group.Unbundled.Basic
import Mathlib.Data.Nat.Find
import Mathlib.Order.Interval.Set.Basic

/-!
# Intervals

The overlap of two intervals of an ordered group, any of which may be inverted, and the cells
an interval is cut into. Cells that are widened by some padding on either side share twice
that much: what is no longer than that lies in one of them (`exists_padded_cell`).

An interval is its two ends, and nothing says that they come in order: rectangles that are
read from somewhere do not promise it. An inverted interval has length zero, so that lengths
are never negative, and everything about overlaps is then about `min` and `max`. What is true
of a rectangle follows side by side.
-/

set_option autoImplicit false

namespace LocateAnything.Intervals

variable {K : Type} [AddCommGroup K] [LinearOrder K]

/-! ## Overlap -/

/-- The length of an interval; an inverted one has none. -/
def length (a₁ a₂ : K) : K := max 0 (a₂ - a₁)

/-- The length two intervals have in common. Where they do not meet, the later start lies
    behind the earlier end, and an inverted interval has no length. -/
def overlap (a₁ a₂ b₁ b₂ : K) : K := length (max a₁ b₁) (min a₂ b₂)

theorem length_nonneg (a₁ a₂ : K) : 0 ≤ length a₁ a₂ := le_max_left _ _

theorem length_add (t a₁ a₂ : K) : length (t + a₁) (t + a₂) = length a₁ a₂ := by
  rw [length, length, add_sub_add_left_eq_sub]

theorem overlap_comm (a₁ a₂ b₁ b₂ : K) : overlap a₁ a₂ b₁ b₂ = overlap b₁ b₂ a₁ a₂ := by
  rw [overlap, overlap, max_comm, min_comm]

theorem overlap_self (a₁ a₂ : K) : overlap a₁ a₂ a₁ a₂ = length a₁ a₂ := by
  rw [overlap, max_self, min_self]

variable [IsOrderedAddMonoid K]

theorem length_pos_iff {a₁ a₂ : K} : 0 < length a₁ a₂ ↔ a₁ < a₂ := by
  rw [length, lt_max_iff, sub_pos]
  simp

theorem length_of_lt {a₁ a₂ : K} (h : a₁ < a₂) : length a₁ a₂ = a₂ - a₁ :=
  max_eq_right (sub_pos.mpr h).le

theorem length_mono {a₁ a₂ b₁ b₂ : K} (h₁ : b₁ ≤ a₁) (h₂ : a₂ ≤ b₂) :
    length a₁ a₂ ≤ length b₁ b₂ :=
  max_le_max_left 0 (sub_le_sub h₂ h₁)

theorem overlap_le (a₁ a₂ b₁ b₂ : K) : overlap a₁ a₂ b₁ b₂ ≤ length a₁ a₂ :=
  length_mono (le_max_left a₁ b₁) (min_le_left a₂ b₂)

theorem overlap_add (t a₁ a₂ b₁ b₂ : K) :
    overlap (t + a₁) (t + a₂) (t + b₁) (t + b₂) = overlap a₁ a₂ b₁ b₂ := by
  rw [overlap, overlap, max_add_add_left, min_add_add_left, length_add]

theorem overlap_pos_iff {a₁ a₂ b₁ b₂ : K} :
    0 < overlap a₁ a₂ b₁ b₂ ↔ max a₁ b₁ < min a₂ b₂ := length_pos_iff

/-- Intervals that overlap have a point in common. -/
theorem exists_mem_of_overlap_pos [DenselyOrdered K] {a₁ a₂ b₁ b₂ : K}
    (h : 0 < overlap a₁ a₂ b₁ b₂) : ∃ x, x ∈ Set.Ioo a₁ a₂ ∧ x ∈ Set.Ioo b₁ b₂ := by
  obtain ⟨x, hlo, hhi⟩ := exists_between (overlap_pos_iff.mp h)
  obtain ⟨ha₁, hb₁⟩ := max_lt_iff.mp hlo
  obtain ⟨ha₂, hb₂⟩ := lt_min_iff.mp hhi
  exact ⟨x, ⟨ha₁, ha₂⟩, ⟨hb₁, hb₂⟩⟩

/-- An interval that lies in another one as a whole. -/
theorem subset_of_overlap_eq {a₁ a₂ b₁ b₂ : K} (ha : a₁ < a₂)
    (h : overlap a₁ a₂ b₁ b₂ = length a₁ a₂) : b₁ ≤ a₁ ∧ a₂ ≤ b₂ := by
  have hpos : 0 < overlap a₁ a₂ b₁ b₂ := h ▸ length_pos_iff.mpr ha
  rw [overlap, length_of_lt (overlap_pos_iff.mp hpos), length_of_lt ha] at h
  -- neither end moves inwards, so neither can move at all
  have hlo : a₁ ≤ max a₁ b₁ := le_max_left a₁ b₁
  have hhi : min a₂ b₂ ≤ a₂ := min_le_left a₂ b₂
  have hmax : max a₁ b₁ = a₁ := by
    refine le_antisymm ?_ hlo
    have := sub_le_sub_right hhi (max a₁ b₁)
    rw [h] at this
    exact (sub_le_sub_iff_left a₂).mp this
  have hmin : min a₂ b₂ = a₂ := by
    rw [hmax] at h
    exact sub_left_inj.mp h
  exact ⟨max_eq_left_iff.mp hmax, min_eq_left_iff.mp hmin⟩

/-! ## Cells -/

/-- Every point is in a cell. -/
theorem exists_cell {K : Type} [LinearOrder K] {e : ℕ → K} {n : ℕ} {x : K} (h₀ : e 0 ≤ x)
    (hn : x < e n) : ∃ i < n, e i ≤ x ∧ x < e (i + 1) := by
  induction n with
  | zero => exact absurd h₀ (not_le.mpr hn)
  | succ n ih =>
    by_cases hx : x < e n
    · obtain ⟨i, hi, hcell⟩ := ih hx
      exact ⟨i, Nat.lt_succ_of_lt hi, hcell⟩
    · exact ⟨n, Nat.lt_succ_self n, not_lt.mp hx, hn⟩

/-! ### Padding

A cell is widened on either side, but not beyond the first and the last edge. -/

/-- Where the cell `i` begins. -/
def cellLo (e : ℕ → K) (pad : K) (i : ℕ) : K := max (e 0) (e i - pad)

/-- Where the cell `i` of `n` ends. -/
def cellHi (e : ℕ → K) (n : ℕ) (pad : K) (i : ℕ) : K := min (e n) (e (i + 1) + pad)

section
variable {e : ℕ → K} {n i : ℕ} {pad : K}

omit [IsOrderedAddMonoid K] in
theorem first_le_cellLo : e 0 ≤ cellLo e pad i := le_max_left _ _

omit [IsOrderedAddMonoid K] in
theorem cellHi_le_last : cellHi e n pad i ≤ e n := min_le_left _ _

theorem cellLo_le (he : Monotone e) (hpad : 0 ≤ pad) : cellLo e pad i ≤ e i :=
  max_le (he (Nat.zero_le i)) (sub_le_self _ hpad)

theorem le_cellHi (he : Monotone e) (hpad : 0 ≤ pad) (hi : i < n) :
    e (i + 1) ≤ cellHi e n pad i :=
  le_min (he hi) (le_add_of_nonneg_right hpad)

theorem cellLo_le_cellHi (he : Monotone e) (hpad : 0 ≤ pad) (hi : i < n) :
    cellLo e pad i ≤ cellHi e n pad i :=
  calc cellLo e pad i ≤ e i := cellLo_le he hpad
    _ ≤ e (i + 1) := he (Nat.le_succ i)
    _ ≤ cellHi e n pad i := le_cellHi he hpad hi

theorem cellLo_lt_cellHi (he : StrictMono e) (hpad : 0 ≤ pad) (hi : i < n) :
    cellLo e pad i < cellHi e n pad i :=
  calc cellLo e pad i ≤ e i := cellLo_le he.monotone hpad
    _ < e (i + 1) := he (Nat.lt_succ_self i)
    _ ≤ cellHi e n pad i := le_cellHi he.monotone hpad hi

theorem exists_mem_cell {x : K} (he : Monotone e) (hpad : 0 ≤ pad) (h₀ : e 0 ≤ x)
    (hn : x < e n) : ∃ i < n, cellLo e pad i ≤ x ∧ x < cellHi e n pad i := by
  obtain ⟨i, hi, hlo, hhi⟩ := exists_cell h₀ hn
  exact ⟨i, hi, (cellLo_le he hpad).trans hlo, hhi.trans_le (le_cellHi he hpad hi)⟩

/-- **What is no longer than twice the padding lies in a padded cell.** The cell is the first
    that reaches far enough to the right: the one before it does not, so the end is more than
    a padding behind the cell's edge, and the start less than a padding in front of it. -/
theorem exists_padded_cell {u v : K} (hpos : 0 < n) (hpad : 0 ≤ pad) (h₀ : e 0 ≤ u)
    (hn : v ≤ e n) (huv : v - u ≤ pad + pad) :
    ∃ i < n, cellLo e pad i ≤ u ∧ v ≤ cellHi e n pad i := by
  classical
  -- the first cell that reaches far enough to the right
  have hlast : ∃ i, i < n ∧ v ≤ e (i + 1) + pad := by
    refine ⟨n - 1, Nat.sub_lt hpos Nat.one_pos, ?_⟩
    rw [Nat.sub_add_cancel hpos]
    exact hn.trans (le_add_of_nonneg_right hpad)
  obtain ⟨hlt, hright⟩ := Nat.find_spec hlast
  refine ⟨Nat.find hlast, hlt, max_le h₀ ?_, le_min hn hright⟩
  cases hi : Nat.find hlast with
  | zero => exact (sub_le_self _ hpad).trans h₀
  | succ i =>
    have hbefore : ¬ (i < n ∧ v ≤ e (i + 1) + pad) :=
      Nat.find_min hlast (by rw [hi]; exact Nat.lt_succ_self i)
    have hleft : e (i + 1) + pad < v :=
      not_le.mp fun hle => hbefore ⟨by omega, hle⟩
    have hsub : e (i + 1) + pad - (pad + pad) ≤ u :=
      (sub_le_sub_right hleft.le _).trans (sub_le_comm.mp huv)
    rwa [add_sub_add_right_eq_sub] at hsub

end

end LocateAnything.Intervals
