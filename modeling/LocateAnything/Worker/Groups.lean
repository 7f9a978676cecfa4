import LocateAnything.Worker.Passes
import LocateAnything.Worker.Conservation

/-!
# Groups do not touch each other

An answer is a row of category groups, each of which begins with a `<ref>` tag. What the
parsers take from one group does not depend on the others (`groups_independent`): where the
boxes in front of a `<ref>` are closed, no expression reads across it.

`Junction b` is what stands behind the border, `LastClosed a` what stands in front. A tag is
read across the border only if it is a `<ref>` that starts there; a box would have to be open.
Both conditions are needed. Without the first, what follows might be a further block of the
last run; without the second, the lazy `.*?` of an open box would run on to the next `</box>`,
wherever it is, and take the tag in between with it.

The condition on the front is about its last `<box>` only. That is enough, because an earlier
box that is still open has the last one behind it, and with that its `</box>`. So the
condition can be decided by looking at one place, and holds of an answer that has garbage in
it as well.
-/

set_option autoImplicit false

namespace LocateAnything.Worker

open LocateAnything.Regex LocateAnything.Scan LocateAnything.Words Py

/-- Behind the last `<box>` there is a `</box>`. Vacuous where there is no box. -/
def LastClosed (a : Str) : Prop :=
  ∀ t ∈ a.tails, boxOpen ++ t ∈ a.tails → ¬ boxOpen <:+: t → boxClose <:+: t

instance (a : Str) : Decidable (LastClosed a) :=
  inferInstanceAs (Decidable (∀ t ∈ a.tails, boxOpen ++ t ∈ a.tails → ¬ boxOpen <:+: t →
    boxClose <:+: t))

/-- What may follow: nothing, or another group. -/
def Junction (b : Str) : Prop := b = [] ∨ refOpen <+: b

section Border

variable {a b x : Str}

/-- The last box is closed, so every box is. -/
theorem LastClosed.close_behind (ha : LastClosed a) (t : Str) :
    boxOpen ++ t <:+ a → boxClose <:+: t := by
  induction hn : t.length using Nat.strongRecOn generalizing t with
  | ind n ih =>
    intro h
    by_cases hlater : boxOpen <:+: t
    · obtain ⟨u, t', rfl⟩ := hlater
      have hlen : t'.length < n := by
        simp only [← hn, List.length_append, boxOpen, List.length_cons]
        omega
      have hsuf : boxOpen ++ t' <:+ a := by
        refine List.IsSuffix.trans ⟨boxOpen ++ u, ?_⟩ h
        simp
      have := ih _ hlen t' rfl hsuf
      exact this.trans ⟨u ++ boxOpen, [], by simp⟩
    · have ht : t ∈ a.tails :=
        (List.mem_tails t a).mpr ((List.suffix_append boxOpen t).trans h)
      exact ha t ht ((List.mem_tails _ a).mpr h) hlater

/-- A word without `<` does not reach over the border. -/
theorem Junction.word (hb : Junction b) {w : Str} (hw : '<' ∉ w) (h : w <+: x ++ b) : w <+: x := by
  obtain ⟨s, hs⟩ := h
  rcases List.append_eq_append_iff.mp hs with ⟨y, hx, -⟩ | ⟨y, rfl, hy⟩
  · exact ⟨y, hx.symm⟩
  · rcases hb with rfl | ⟨b', rfl⟩
    · simp only [List.nil_eq, List.append_eq_nil_iff] at hy
      simp [hy.1]
    · cases y with
      | nil => simp
      | cons c y =>
        simp only [refOpen, List.cons_append, List.cons.injEq] at hy
        exact absurd (by simp [← hy.1]) hw

/-- A tag does not reach over the border; only a `<ref>` begins at it. -/
theorem Junction.tag (hb : Junction b) {c : Char} {w : Str} (hw : '<' ∉ c :: w)
    (hx : c = 'r' → x ≠ []) (h : '<' :: c :: w <+: x ++ b) : '<' :: c :: w <+: x := by
  cases x with
  | nil =>
    exfalso
    obtain ⟨s, hs⟩ := h
    rcases hb with rfl | ⟨b', rfl⟩
    · simp at hs
    · simp only [refOpen, List.cons_append, List.nil_append, List.cons.injEq, true_and] at hs
      exact hx hs.1 rfl
  | cons d x =>
    obtain ⟨rfl, hrest⟩ := List.cons_prefix_cons.mp h
    exact List.cons_prefix_cons.mpr ⟨rfl, hb.word hw hrest⟩

/-- A block that starts in front of the border ends there too. -/
theorem exists_block (ha : LastClosed a) (hb : Junction b) (hx : x <:+ a)
    (h : boxOpen <+: x ++ b) : ∃ (k : Block) (t : Str), x = k.text ++ t := by
  obtain ⟨s, rfl⟩ := hb.tag (by decide) (fun hc => absurd hc (by decide)) h
  have hclose := ha.close_behind s hx
  obtain ⟨⟨body, t⟩, hu⟩ := Option.isSome_iff_exists.mp ((until?_isSome s).mpr hclose)
  refine ⟨⟨body, until?_fresh s hu⟩, t, ?_⟩
  rw [Block.text_append]
  exact congrArg (boxOpen ++ ·) (until?_some s hu)

theorem Block.boxOpen_prefix_append (k : Block) (t : Str) : boxOpen <+: k.text ++ t := by
  rw [Block.text_append]
  exact List.prefix_append _ _

/-! ## Every scan is cut at the border -/

/-- For numeric blocks the front need not be closed: none of them reads over a `<ref>`. -/
theorem cut_coordBlockRe (n : Nat) (a : Str) (hb : Junction b) :
    Cut (coordBlockRe n).read a b := by
  rcases hb with rfl | ⟨b', rfl⟩
  · intro x _ _
    rw [List.append_nil]
  · exact cut_before_tag (by decide) (by decide)

theorem cut_anyBoxRe (ha : LastClosed a) (hb : Junction b) : Cut anyBoxRe.read a b := by
  intro x _ hs
  cases hr : anyBoxRe.read x with
  | some r =>
    obtain ⟨gs, len⟩ := r
    obtain ⟨k, t, rfl, hgs, hlen⟩ := read_anyBoxRe.mp hr
    exact read_anyBoxRe.mpr ⟨k, t ++ b, List.append_assoc _ _ _, hgs, hlen⟩
  | none =>
    cases hr' : anyBoxRe.read (x ++ b) with
    | none => rfl
    | some r =>
      obtain ⟨gs, len⟩ := r
      obtain ⟨k, t, hkt, -, -⟩ := read_anyBoxRe.mp hr'
      obtain ⟨k', t', hx⟩ := exists_block ha hb hs (hkt ▸ k.boxOpen_prefix_append t)
      rw [read_anyBoxRe.mpr ⟨k', t', hx, rfl, rfl⟩] at hr
      exact absurd hr (by simp)

/-- A sibling is spaces and a block, and no border lies in the spaces, since nothing that
    starts with `<ref>` is a space. -/
theorem exists_sibling (ha : LastClosed a) (hb : Junction b) (hx : x <:+ a) {k : Sibling} {t : Str}
    (h : x ++ b = k.text ++ t) : ∃ (k' : Sibling) (t' : Str), x = k'.text ++ t' := by
  have hspace : k.space <+: x := by
    refine hb.word (fun hlt => ?_) ⟨k.block.text ++ t, by rw [h, Sibling.text, List.append_assoc]⟩
    exact absurd (k.space_ok _ hlt) (by decide)
  obtain ⟨y, rfl⟩ := hspace
  rw [Sibling.text, List.append_assoc, List.append_assoc] at h
  have hblock := List.append_cancel_left h
  obtain ⟨k', t', rfl⟩ := exists_block ha hb ((List.suffix_append _ _).trans hx)
    (hblock ▸ k.block.boxOpen_prefix_append t)
  exact ⟨⟨k.space, k.space_ok, k'⟩, t', by rw [Sibling.text, List.append_assoc]⟩

/-- The tag of a run that starts in front of the border stands in front of it. -/
theorem exists_refTag (hb : Junction b) (hx : x ≠ []) {label s : Str} (hl : '<' ∉ label)
    (h : x ++ b = refTag label ++ s) : ∃ y, x = refTag label ++ y ∧ y ++ b = s := by
  have hopen : refOpen <+: x :=
    hb.tag (by decide) (fun _ => hx) ⟨label ++ (refClose ++ s), by rw [h]; simp [refTag, refOpen]⟩
  obtain ⟨y, rfl⟩ := hopen
  simp only [refTag, List.append_assoc] at h
  have hlabel : label <+: y := hb.word hl ⟨refClose ++ s, (List.append_cancel_left h).symm⟩
  obtain ⟨z, rfl⟩ := hlabel
  have hz : z ++ b = refClose ++ s := by
    have := List.append_cancel_left h
    rw [List.append_assoc] at this
    exact List.append_cancel_left this
  have hclose : refClose <+: z :=
    hb.tag (by decide) (fun hc => absurd hc (by decide)) ⟨s, hz.symm⟩
  obtain ⟨y, rfl⟩ := hclose
  refine ⟨y, by simp [refTag], ?_⟩
  rw [List.append_assoc] at hz
  exact List.append_cancel_left hz

/-- The tag of a run is in front of the border or behind it, and so are the siblings: the last
    of them cannot be followed by one from behind. -/
theorem cut_refRunRe (ha : LastClosed a) (hb : Junction b) : Cut refRunRe.read a b := by
  intro x hx hs
  cases hr : refRunRe.read x with
  | some r =>
    obtain ⟨gs, len⟩ := r
    obtain ⟨run, t, rfl, ht, hgs, hlen⟩ := read_refRunRe.mp hr
    refine read_refRunRe.mpr ⟨run, t ++ b, List.append_assoc _ _ _, fun k s hk => ?_, hgs, hlen⟩
    obtain ⟨k', t', ht'⟩ := exists_sibling ha hb ((List.suffix_append _ _).trans hs) hk
    exact ht k' t' ht'
  | none =>
    cases hr' : refRunRe.read (x ++ b) with
    | none => rfl
    | some r =>
      exfalso
      obtain ⟨gs, len⟩ := r
      obtain ⟨run, t, hrun, -, -, -⟩ := read_refRunRe.mp hr'
      obtain ⟨k, ks, hks⟩ := List.exists_cons_of_ne_nil run.ne_nil
      rw [RefRun.text, List.append_assoc] at hrun
      obtain ⟨y, rfl, hy⟩ := exists_refTag hb hx run.label_ok hrun
      rw [RefRun.boxes, hks, siblingsText_cons, List.append_assoc] at hy
      obtain ⟨k', t', rfl⟩ := exists_sibling ha hb ((List.suffix_append _ _).trans hs) hy
      -- The siblings in front of the border are a run of their own.
      obtain ⟨ks', t'', rfl, ht''⟩ := exists_siblings t'
      let run' : RefRun := ⟨run.label, run.label_ok, k' :: ks', by simp⟩
      have hread := read_refRunRe.mpr ⟨run', t'', rfl, ht'', rfl, rfl⟩
      have htext :
          run'.text ++ t'' = refTag run.label ++ (k'.text ++ (siblingsText ks' ++ t'')) := by
        simp [run', RefRun.text, RefRun.boxes]
      rw [htext, hr] at hread
      exact absurd hread (by simp)

/-! ## What is found on both sides -/

theorem finditer_refRunRe_append (ha : LastClosed a) (hb : Junction b) :
    refRunRe.finditer (a ++ b)
      = refRunRe.finditer a ++ (refRunRe.finditer b).map (Found.shift a.length) :=
  finditer_append proper_refRunRe (cut_refRunRe ha hb)

/-- Behind the border everything is found as many characters further on. -/
theorem blocksInRun_shift (n d : Nat) (m : Match Char) :
    blocksInRun n (m.shift d) = (blocksInRun n m).map (Found.shift d) := by
  rw [blocksInRun, blocksInRun, List.map_map]
  refine List.map_congr_left fun b _ => ?_
  simp only [Function.comp_apply, Found.shift, Match.startOf, Found.mk.injEq, and_true]
  omega

/-- The blocks of the runs, on either side. -/
theorem labelledBlocks_append (n : Nat) (ha : LastClosed a) (hb : Junction b) :
    labelledBlocks n (a ++ b) = labelledBlocks n a
      ++ (labelledBlocks n b).map (Prod.map (Found.shift a.length) (Found.shift a.length)) := by
  rw [labelledBlocks, finditer_refRunRe_append ha hb, List.flatMap_append, List.flatMap_map,
    labelledBlocks, labelledBlocks, List.map_flatMap]
  refine congrArg _ (List.flatMap_congr fun m _ => ?_)
  have hlabel : runLabel (m.shift a.length) = runLabel m := rfl
  rw [hlabel]
  split
  · rfl
  · rw [blocksInRun_shift, List.map_map, List.map_map]
    rfl

/-- The blocks outside every run, on either side. A block of one side does not overlap a run
    of the other. -/
theorem unlabelledBlocks_append (n : Nat) (ha : LastClosed a) (hb : Junction b) :
    unlabelledBlocks n (a ++ b)
      = unlabelledBlocks n a ++ (unlabelledBlocks n b).map (Found.shift a.length) := by
  rw [unlabelledBlocks, finditer_refRunRe_append ha hb, List.flatMap_append, List.flatMap_map,
    unlabelledBlocks, unlabelledBlocks, List.map_flatMap]
  refine congrArg _ (List.flatMap_congr fun m _ => ?_)
  have hlabel : runLabel (m.shift a.length) = runLabel m := rfl
  rw [hlabel]
  split
  · exact blocksInRun_shift n a.length m
  · rfl

theorem orphans_append (n : Nat) (ha : LastClosed a) (hb : Junction b) :
    orphans n (a ++ b) = orphans n a ++ (orphans n b).map (Found.shift a.length) := by
  have hruns := finditer_refRunRe_append ha hb
  have hblocks := finditer_append (proper_coordBlockRe n) (cut_coordBlockRe n a hb)
  rw [orphans, hblocks, List.filter_append, List.filter_map, orphans, orphans]
  congr 1
  · refine List.filter_congr fun m hm => ?_
    have hm' := scanFrom_bounds (proper_coordBlockRe n) a hm
    have hright : ((refRunRe.finditer b).map (Found.shift a.length)).any
        (fun i => m.overlaps i) = false := by
      apply any_overlaps_eq_false
      intro i hi
      obtain ⟨j, -, rfl⟩ := List.mem_map.mp hi
      left
      rw [Found.shift_start]
      omega
    rw [hruns, List.any_append, hright, Bool.or_false]
  · refine congrArg _ (List.filter_congr fun m _ => ?_)
    have hleft : (refRunRe.finditer a).any (fun i => (m.shift a.length).overlaps i) = false := by
      apply any_overlaps_eq_false
      intro i hi
      have hi' := scanFrom_bounds proper_refRunRe a hi
      right
      rw [Found.shift_start]
      omega
    rw [Function.comp_apply, hruns, List.any_append, hleft, Bool.false_or, List.any_map]
    simp only [Function.comp_def, Found.overlaps_shift]

end Border

/-! ## The parsers -/

/-- Counting is over closed blocks, and those are cut at the border. -/
theorem countMalformedGeometry_append {a b : Str} (ha : LastClosed a) (hb : Junction b) :
    countMalformedGeometry (a ++ b) = countMalformedGeometry a + countMalformedGeometry b := by
  rw [countMalformedGeometry_eq, wholes_append proper_anyBoxRe (cut_anyBoxRe ha hb),
    List.map_append, List.sum_append, countMalformedGeometry_eq, countMalformedGeometry_eq]

theorem parseBoxes_append {a b : Str} (ha : LastClosed a) (hb : Junction b) (w h : Nat) :
    parseBoxes (a ++ b) w h =
      ((parseBoxes a w h).1 ++ (parseBoxes b w h).1,
       (parseBoxes a w h).2 + (parseBoxes b w h).2) := by
  simp only [parseBoxes_eq, labelledBlocks_append 4 ha hb, unlabelledBlocks_append 4 ha hb,
    orphans_append 4 ha hb, List.map_append, List.map_map, List.length_append, List.length_map]
  refine Prod.ext rfl ?_
  simp only
  omega

/-- The points that are labelled by their run come first, so those of the two sides change places
    where bare points are labelled, too. -/
theorem parsePoints_append {a b : Str} (ha : LastClosed a) (hb : Junction b) (w h : Nat)
    (pl : Option Str) :
    (parsePoints (a ++ b) w h pl).2 = (parsePoints a w h pl).2 + (parsePoints b w h pl).2 ∧
    ((parsePoints (a ++ b) w h pl).1).Perm ((parsePoints a w h pl).1 ++ (parsePoints b w h pl).1) ∧
    (truthy pl = none →
      (parsePoints (a ++ b) w h pl).1 = (parsePoints a w h pl).1 ++ (parsePoints b w h pl).1) := by
  simp only [parsePoints_eq, labelledBlocks_append 2 ha hb, unlabelledBlocks_append 2 ha hb,
    orphans_append 2 ha hb]
  cases hl : truthy pl with
  | none =>
    simp only [List.map_append, List.map_map, List.length_append, List.length_map]
    exact ⟨by omega, List.Perm.refl _, fun _ => rfl⟩
  | some l =>
    simp only [List.map_append, List.map_map, List.length_append, List.length_map]
    refine ⟨trivial, ?_, fun hno => absurd hno (by simp)⟩
    rw [List.append_assoc, List.append_assoc, List.perm_append_left_iff, ← List.append_assoc,
      ← List.append_assoc]
    exact (List.perm_append_comm).append_right _

/-- **Groups are independent.** Behind closed boxes a new group is parsed as if it stood alone,
    and what stands in front of it as if nothing followed. -/
theorem groups_independent (a b : Str) (ha : LastClosed a) (hb : Junction b) (w h : Nat)
    (pl : Option Str) :
    parseBoxes (a ++ b) w h =
        ((parseBoxes a w h).1 ++ (parseBoxes b w h).1,
          (parseBoxes a w h).2 + (parseBoxes b w h).2) ∧
    countMalformedGeometry (a ++ b) = countMalformedGeometry a + countMalformedGeometry b ∧
    (parsePoints (a ++ b) w h pl).2 = (parsePoints a w h pl).2 + (parsePoints b w h pl).2 ∧
    ((parsePoints (a ++ b) w h pl).1).Perm ((parsePoints a w h pl).1 ++ (parsePoints b w h pl).1) ∧
    (pl = none →
      (parsePoints (a ++ b) w h pl).1 = (parsePoints a w h pl).1 ++ (parsePoints b w h pl).1) := by
  obtain ⟨hoff, hperm, heq⟩ := parsePoints_append ha hb w h pl
  refine ⟨parseBoxes_append ha hb w h, countMalformedGeometry_append ha hb, hoff, hperm, ?_⟩
  rintro rfl
  exact heq rfl

/-- A closed group with garbage in it, in front of another group. -/
theorem groups_independent_cat_dog :
    let a := "<ref>cat</ref><box><1></box><ref><box><1><2></box> <ref".toList
    let b := "<ref>dog</ref><box><1><2><3><4></box>".toList
    countMalformedGeometry (a ++ b) = 1 ∧ (parseBoxes (a ++ b) 100 100).1.length = 1 := by
  obtain ⟨hboxes, hmalformed, -⟩ := groups_independent
    "<ref>cat</ref><box><1></box><ref><box><1><2></box> <ref".toList
    "<ref>dog</ref><box><1><2><3><4></box>".toList (by decide +kernel) (.inr (by decide +kernel))
    100 100 none
  exact ⟨hmalformed.trans (by decide +kernel), by rw [hboxes]; decide +kernel⟩

end LocateAnything.Worker
