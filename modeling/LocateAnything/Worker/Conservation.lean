import LocateAnything.Worker.Inference
import LocateAnything.Worker.Passes

/-!
# No silent drop

Every numeric block of an answer is returned or counted, every other closed block but the
abstention is counted as malformed, and a frame is reported as an abstention only when nothing
was there to count.

The ledger is kept per closed block: `contribution w` is what one `<box>…</box>` adds to
`valid_count + dropped`, and the total is the sum over the blocks of the answer
(`total_eq_sum_contribution`), whatever the task and the point label. The parser itself has no
ledger. It makes three passes with three expressions, each of which scans the answer from the
start, and what one of them skips another may count. That the passes agree block by block is a
fact about the expressions: a numeric block lies within a closed block, and no two of the
passes count the same one.
-/

set_option autoImplicit false

namespace LocateAnything.Worker

open LocateAnything.Regex LocateAnything.Scan Py

/-! ## The two geometry passes -/

theorem length_parseBoxes (answer : Str) (w h : Nat) :
    (parseBoxes answer w h).1.length + (parseBoxes answer w h).2
      = (boxRe.finditer answer).length := by
  rw [parseBoxes_eq, List.length_map, ← Nat.add_assoc]
  exact length_blocks 4 answer

theorem length_parsePoints (answer : Str) (w h : Nat) (pl : Option Str) :
    (parsePoints answer w h pl).1.length + (parsePoints answer w h pl).2
      = (pointRe.finditer answer).length := by
  rw [parsePoints_eq, pointRe, ← length_blocks]
  split
  · simp only [List.length_append, List.length_map]; omega
  · simp only [List.length_map]; omega

/-- The detections stand in the order of their blocks: they are made, one by one, from a
    subsequence of the `_BOX_RE` matches. Which ones are missing is what the second component
    counts. -/
theorem parseBoxes_in_order (answer : Str) (w h : Nat) :
    ∃ blocks : List (Match Char), blocks.Sublist (boxRe.finditer answer) ∧
      List.Forall₂ (fun d m => d = boxOf d.label w h m) (parseBoxes answer w h).1 blocks := by
  refine ⟨_, map_snd_labelledBlocks_sublist 4 answer, ?_⟩
  rw [parseBoxes_eq, List.forall₂_map_left_iff, List.forall₂_map_right_iff]
  exact List.forall₂_same.mpr fun p _ => rfl

/-! ## The ledger -/

/-- What one closed block adds to `valid_count + dropped`: the numeric blocks within it, of
    both shapes, and one if it is neither numeric as a whole nor an abstention. -/
def contribution (block : Str) : Nat :=
  (boxRe.finditer block).length + (pointRe.finditer block).length
    + if onContract block then 0 else 1

theorem countMalformedGeometry_eq (answer : Str) :
    countMalformedGeometry answer
      = ((wholes anyBoxRe answer).map fun w => if onContract w then 0 else 1).sum := by
  rw [countMalformedGeometry, wholes, List.map_map]
  induction anyBoxRe.finditer answer with
  | nil => rfl
  | cons m ms ih =>
    rw [List.map_cons, List.sum_cons, ← ih]
    by_cases hm : onContract (m.whole answer) = true
    · rw [List.filter_cons_of_neg (by simp [hm])]
      simp [hm]
    · rw [List.filter_cons_of_pos (by simp [hm])]
      simp [hm, Nat.add_comm]

theorem total_eq (answer : Str) (w h : Nat) (pl : Option Str) (e : Shape) :
    (parseAnswer answer w h pl).validCount e + (parseAnswer answer w h pl).dropped e
      = (boxRe.finditer answer).length + (pointRe.finditer answer).length
        + countMalformedGeometry answer := by
  have hb := length_parseBoxes answer w h
  have hp := length_parsePoints answer w h pl
  cases e <;> simp only [Tally.validCount, Tally.dropped, parseAnswer] <;> omega

/-- **The total is kept block by block.** -/
theorem total_eq_sum_contribution (answer : Str) (w h : Nat) (pl : Option Str) (e : Shape) :
    (parseAnswer answer w h pl).validCount e + (parseAnswer answer w h pl).dropped e
      = ((wholes anyBoxRe answer).map contribution).sum := by
  rw [total_eq, boxRe, pointRe, length_finditer_coordBlockRe, length_finditer_coordBlockRe,
    countMalformedGeometry_eq]
  induction wholes anyBoxRe answer with
  | nil => rfl
  | cons b bs ih =>
    simp only [List.map_cons, List.sum_cons, contribution, boxRe, pointRe] at ih ⊢
    omega

theorem length_finditer_coordBlock (ds : List Numeral) :
    1 ≤ ((coordBlockRe ds.length).finditer (coordBlock ds)).length := by
  have hread : (coordBlockRe ds.length).read (coordBlock ds ++ [])
      = some (coordCaptures 1 5 ds, (coordBlock ds).length) :=
    read_coordBlockRe.mpr ⟨ds, rfl, [], rfl, rfl, rfl⟩
  have hne : coordBlock ds ≠ [] := List.length_pos_iff.mp (length_coordBlock_pos ds)
  have := @scanFrom_token _ _ _ _ _ _ 0 hne hread
  rw [List.append_nil] at this
  rw [Regex.finditer, this]
  simp

/-- A block that is no abstention counts. -/
theorem one_le_contribution {w : Str} (h : noneRe.fullmatch w = false) : 1 ≤ contribution w := by
  rw [contribution]
  by_cases hon : onContract w = true
  · simp only [onContract, h, Bool.or_false, Bool.or_eq_true] at hon
    rcases hon with hon | hon
    · obtain ⟨ds, hds, rfl⟩ := fullmatch_coordBlockRe.mp hon
      have := length_finditer_coordBlock ds
      rw [hds] at this
      simp only [boxRe]
      omega
    · obtain ⟨ds, hds, rfl⟩ := fullmatch_coordBlockRe.mp hon
      have := length_finditer_coordBlock ds
      rw [hds] at this
      simp only [pointRe]
      omega
  · rw [if_neg hon]; omega

/-- An abstention does not. -/
theorem contribution_of_none {w : Str} (h : noneRe.fullmatch w = true) : contribution w = 0 := by
  rcases fullmatch_noneRe.mp h with rfl | rfl <;> decide

theorem sum_contribution_eq_zero (ws : List Str) :
    (ws.map contribution).sum = 0 ↔ ∀ w ∈ ws, noneRe.fullmatch w = true := by
  rw [List.sum_eq_zero_iff_forall_eq_nat]
  simp only [List.mem_map, forall_exists_index, and_imp, forall_apply_eq_imp_iff₂]
  refine forall₂_congr fun w _ => ⟨fun h => ?_, contribution_of_none⟩
  by_contra hno
  have := one_le_contribution (Bool.eq_false_iff.mpr hno)
  omega

/-- **No silent drop.** Both passes return or count every block of their shape, the detections in
    the order of their blocks; `valid_count + dropped` is what the blocks of the answer amount to,
    at least one for every closed block that is not an abstention; and a frame abstains exactly
    when every closed block does. -/
theorem no_silent_drop (f : Frame) (task : TemplateKind) (pl : Option Str) (answer : Str) :
    let t := parseAnswer answer f.width f.height pl
    let total := t.validCount (expectedShape task) + t.dropped (expectedShape task)
    t.boxes.length + t.box_off = (boxRe.finditer answer).length ∧
    (∃ blocks : List (Match Char), blocks.Sublist (boxRe.finditer answer) ∧
      List.Forall₂ (fun d m => d = boxOf d.label f.width f.height m) t.boxes blocks) ∧
    t.points.length + t.point_off = (pointRe.finditer answer).length ∧
    total = (boxRe.finditer answer).length + (pointRe.finditer answer).length
      + countMalformedGeometry answer ∧
    total = ((wholes anyBoxRe answer).map contribution).sum ∧
    (∀ w ∈ wholes anyBoxRe answer, noneRe.fullmatch w = false → 1 ≤ contribution w) ∧
    ((mapAnswer f task pl answer).kind = .abstained ↔
      ∀ w ∈ wholes anyBoxRe answer, noneRe.fullmatch w = true) := by
  refine ⟨length_parseBoxes _ _ _, parseBoxes_in_order _ _ _, length_parsePoints _ _ _ _,
    total_eq _ _ _ _ _, total_eq_sum_contribution _ _ _ _ _, fun w _ => one_le_contribution, ?_⟩
  rw [mapAnswer_abstained_iff, total_eq_sum_contribution, sum_contribution_eq_zero]

end LocateAnything.Worker
