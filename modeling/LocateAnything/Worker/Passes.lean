import LocateAnything.Worker.Segments

/-!
# What the passes return

`parse_boxes` and `parse_points` in one vocabulary. The numeric blocks of an answer fall into
three groups (under a run with a label, under a run with a blank one, under none), and each
parser is a map over the first (`parseBoxes_eq`, `parsePoints_eq`). The groups are a partition
(`length_blocks`).

The code finds the groups in two passes over the same text. The first goes through the
ref-runs and looks for blocks inside each, the second looks for blocks everywhere and drops
those that overlap what the first has consumed. That the two together see every block exactly
once is not obvious of spans, and is what `Segments` is for: blocks that overlap a run are
those of the run. Here it is put to use, and behind this file no span is compared with
another.

The parsers differ in two ways. The points have a test against the box spans, which takes
nothing, as a box and a point cannot overlap; and points outside every run may be labelled by
the request.
-/

set_option autoImplicit false

namespace LocateAnything.Worker

open LocateAnything.Regex LocateAnything.Scan Py

variable {n : Nat} {answer : Str}

/-- The blocks an item is made of, each with the run that labels it. -/
def labelledBlocks (n : Nat) (answer : Str) : List (Match Char × Match Char) :=
  (refRunRe.finditer answer).flatMap fun m =>
    if runLabel m = [] then [] else (blocksInRun n m).map fun b => (m, b)

/-- The blocks of runs whose label is blank, which the parsers count as off contract. -/
def unlabelledBlocks (n : Nat) (answer : Str) : List (Match Char) :=
  (refRunRe.finditer answer).flatMap fun m => if runLabel m = [] then blocksInRun n m else []

/-- The blocks outside every run. -/
def orphans (n : Nat) (answer : Str) : List (Match Char) :=
  ((coordBlockRe n).finditer answer).filter
    fun m => !(refRunRe.finditer answer).any fun i => m.overlaps i

/-! ## The groups are a partition -/

/-- The items are in the order of the answer, since the runs are and the blocks in each of
    them are. -/
theorem map_snd_labelledBlocks_sublist (n : Nat) (answer : Str) :
    ((labelledBlocks n answer).map Prod.snd).Sublist ((coordBlockRe n).finditer answer) := by
  have hsub : ((labelledBlocks n answer).map Prod.snd).Sublist
      ((refRunRe.finditer answer).flatMap (blocksInRun n)) := by
    rw [labelledBlocks]
    induction refRunRe.finditer answer with
    | nil => simp
    | cons m ms ih =>
      rw [List.flatMap_cons, List.flatMap_cons, List.map_append]
      refine List.Sublist.append ?_ ih
      split
      · simp
      · rw [List.map_map]
        exact (List.map_id' (blocksInRun n m)).symm ▸ List.Sublist.refl _
  rw [← filter_overlapping_eq] at hsub
  exact hsub.trans List.filter_sublist

/-- **Every numeric block is in exactly one group.** -/
theorem length_blocks (n : Nat) (answer : Str) :
    (labelledBlocks n answer).length + (unlabelledBlocks n answer).length
      + (orphans n answer).length = ((coordBlockRe n).finditer answer).length := by
  have hruns : (labelledBlocks n answer).length + (unlabelledBlocks n answer).length
      = ((refRunRe.finditer answer).flatMap (blocksInRun n)).length := by
    rw [labelledBlocks, unlabelledBlocks]
    induction refRunRe.finditer answer with
    | nil => rfl
    | cons m ms ih =>
      simp only [List.flatMap_cons, List.length_append]
      rw [← ih]
      split
      · simp only [List.length_nil]; omega
      · simp only [List.length_map, List.length_nil]; omega
  rw [hruns, ← filter_overlapping_eq]
  exact (List.length_eq_length_filter_add _).symm

/-! ## `parse_boxes` -/

theorem parseBoxes_eq (answer : Str) (w h : Nat) :
    parseBoxes answer w h =
      ((labelledBlocks 4 answer).map fun p => boxOf (runLabel p.1) w h p.2,
       (unlabelledBlocks 4 answer).length + (orphans 4 answer).length) := by
  have hfst : ∀ ms : List (Match Char),
      (ms.flatMap fun m => (boxesOfRun w h m).1)
        = (ms.flatMap fun m => if runLabel m = [] then [] else
            (blocksInRun 4 m).map fun b => (m, b)).map
              fun p => boxOf (runLabel p.1) w h p.2 := by
    intro ms
    rw [List.map_flatMap]
    congr 1
    funext m
    rw [boxesOfRun]
    split
    · rfl
    · rw [blocksInRun, List.map_map, List.map_map]
      rfl
  have hsnd : ∀ ms : List (Match Char),
      (ms.map fun m => (boxesOfRun w h m).2).sum
        = (ms.flatMap fun m => if runLabel m = [] then blocksInRun 4 m else []).length := by
    intro ms
    rw [List.length_flatMap]
    congr 1
    refine List.map_congr_left fun m _ => ?_
    rw [boxesOfRun]
    split
    · rw [blocksInRun, List.length_map]; rfl
    · rfl
  rw [parseBoxes]
  exact Prod.ext (hfst _) (congrArg (· + (orphanBoxes answer).length) (hsnd _))

/-! ## `parse_points` -/

/-- No point of a run overlaps a box, so the test against the box spans takes nothing. -/
theorem pointsInRun_eq {m : Match Char} (hm : m ∈ refRunRe.finditer answer) :
    pointsInRun (boxRe.finditer answer) m = blocksInRun 2 m := by
  rw [pointsInRun]
  refine List.filter_eq_self.mpr fun p hp => ?_
  have hmem : p ∈ ((coordBlockRe 2).finditer answer).filter
      (fun m => (refRunRe.finditer answer).any fun i => m.overlaps i) := by
    rw [filter_overlapping_eq]
    exact List.mem_flatMap.mpr ⟨m, hm, hp⟩
  have hpoint := (List.mem_filter.mp hmem).1
  rw [Bool.not_eq_true', List.any_eq_false]
  intro b hb
  rw [not_overlaps_of_ne (k := 4) (by decide) hpoint hb]
  simp

/-- The points pass 1 takes are those that overlap a run. -/
theorem flatMap_pointsInRun :
    (refRunRe.finditer answer).flatMap (pointsInRun (boxRe.finditer answer))
      = ((coordBlockRe 2).finditer answer).filter
          fun m => (refRunRe.finditer answer).any fun i => m.overlaps i := by
  rw [filter_overlapping_eq, List.flatMap_def, List.flatMap_def]
  exact congrArg _ (List.map_congr_left fun m hm => pointsInRun_eq hm)

/-- A block is not empty, so it overlaps itself. -/
theorem overlaps_self {s : Str} {m : Match Char} (h : m ∈ (coordBlockRe n).finditer s) :
    m.overlaps m = true := by
  have := scanFrom_bounds (proper_coordBlockRe n) s h
  simp only [Found.overlaps, Bool.and_eq_true, decide_eq_true_eq]
  omega

/-- The code excludes the points consumed in pass 1 and those that overlap a box; what is left
    is what lies outside every run. -/
theorem barePoints_eq (answer : Str) : barePoints answer = orphans 2 answer := by
  rw [barePoints, orphans, flatMap_pointsInRun]
  refine List.filter_congr fun m hm => ?_
  -- the test against the boxes takes nothing, so that only the runs count
  have hbox : ((boxRe.finditer answer).any fun b => m.overlaps b) = false := by
    rw [List.any_eq_false]
    intro b hb
    rw [not_overlaps_of_ne (k := 4) (by decide) hm hb]
    simp
  rw [hbox, Bool.not_false, Bool.true_and]
  congr 1
  rw [Bool.eq_iff_iff, List.any_eq_true]
  constructor
  · rintro ⟨p, hp, hov⟩
    obtain ⟨hp, hrun⟩ := List.mem_filter.mp hp
    have : m = p := eq_of_overlaps (proper_coordBlockRe 2) hm hp hov
    rw [this]
    exact hrun
  · intro hrun
    exact ⟨m, List.mem_filter.mpr ⟨hm, hrun⟩, overlaps_self hm⟩

theorem parsePoints_eq (answer : Str) (w h : Nat) (pl : Option Str) :
    parsePoints answer w h pl =
      match truthy pl with
      | some l =>
        (((labelledBlocks 2 answer).map fun p => pointOf (runLabel p.1) w h p.2)
          ++ (orphans 2 answer).map (pointOf l w h), (unlabelledBlocks 2 answer).length)
      | none =>
        ((labelledBlocks 2 answer).map fun p => pointOf (runLabel p.1) w h p.2,
          (unlabelledBlocks 2 answer).length + (orphans 2 answer).length) := by
  have hfst : ((refRunRe.finditer answer).flatMap fun m =>
        (pointsOfRun (boxRe.finditer answer) w h m).1)
      = (labelledBlocks 2 answer).map fun p => pointOf (runLabel p.1) w h p.2 := by
    rw [labelledBlocks, List.map_flatMap, List.flatMap_def, List.flatMap_def]
    refine congrArg _ (List.map_congr_left fun m hm => ?_)
    rw [pointsOfRun, pointsInRun_eq hm]
    split
    · rfl
    · rw [List.map_map]; rfl
  have hsnd : ((refRunRe.finditer answer).map fun m =>
        (pointsOfRun (boxRe.finditer answer) w h m).2).sum
      = (unlabelledBlocks 2 answer).length := by
    rw [unlabelledBlocks, List.length_flatMap]
    refine congrArg _ (List.map_congr_left fun m hm => ?_)
    rw [pointsOfRun, pointsInRun_eq hm]
    split <;> rfl
  -- without a label, bare points are counted and not returned
  cases hl : truthy pl with
  | none => simp only [parsePoints, hl, hfst, hsnd, barePoints_eq]
  | some l => simp only [parsePoints, hl, hfst, hsnd, barePoints_eq]

end LocateAnything.Worker
