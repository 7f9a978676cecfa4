import LocateAnything.Worker.Conservation

/-!
# Answers in the trained format, cut anywhere

The model was trained to write groups of a `<ref>` tag and closed blocks, or bare point
blocks, and then `<|im_end|>`. Generation stops at a number of tokens, so an answer may end
anywhere in them. This file reads such answers forward: what the parsers return on the first
`k` characters is what stands complete in them (`take_groupsText`, `take_blocksText`), because
a cut leaves complete blocks and a rest without any `</box>`, and no pass reads anything in
such a rest.

That every pass needs a `</box>` is the one fact about the expressions behind all this
(`quiet_of_no_close` and the three `close_of_read_…`). A `<ref>` in the rest does no harm for
the same reason: a tag is read only with a block behind it. What could do harm is a tag in
front of bare points, and these have none, since `<ref>` cannot be spelled with the letters of
blocks.

The structures say what the model was trained on, and are not the parser's: coordinates are
within the grid, a label is not empty, has no `<` and no padding, a group has at least one
block. The parser accepts more, and clamps, strips and drops; on these it has nothing to do.
-/

set_option autoImplicit false

namespace LocateAnything.Worker

open LocateAnything.Regex LocateAnything.Scan LocateAnything.Words Py

/-! ## The format -/

/-- `n` coordinates in `0..1000`. They are numerals and not numbers, because the model may
    write leading zeros and the text is what is cut. -/
structure Coords (n : Nat) where
  digits : List Numeral
  length_eq : digits.length = n
  le : ∀ d ∈ digits, int d.text ≤ 1000

/-- A block of the trained format: `n` coordinates, or the abstention. -/
inductive TrainedBlock (n : Nat) where
  | coords (c : Coords n)
  | none

def TrainedBlock.text {n : Nat} : TrainedBlock n → Str
  | coords c => coordBlock c.digits
  | none => noneBlock

/-- A label the label expression reads back: not empty, without `<`, without padding. With
    padding the parser would return another label than the text has. -/
structure Label where
  text : Str
  ne_nil : text ≠ []
  no_lt : '<' ∉ text
  strip_eq : strip text = text

/-- A `<ref>` tag and its blocks. Without a block there is no run, and the tag would be read
    by no pass. -/
structure Group where
  label : Label
  blocks : List (TrainedBlock 4)
  ne_nil : blocks ≠ []

def blocksText {n : Nat} (bs : List (TrainedBlock n)) : Str := bs.flatMap TrainedBlock.text

def Group.text (g : Group) : Str := refTag g.label.text ++ blocksText g.blocks

def groupsText (gs : List Group) : Str := gs.flatMap Group.text

/-- The value of coordinate `i`. -/
def Coords.value {n : Nat} (c : Coords n) (i : Nat) : Int :=
  ((c.digits[i]?).map fun d => (int d.text : Int)).getD 0

/-- The box of four coordinates: corner-sorted on the grid, scaled to the image. The model may
    write the corners in either order. -/
def Coords.toDetection (c : Coords 4) (label : Str) (w h : Nat) : Detection where
  label := label
  bbox_norm := [min (c.value 0) (c.value 2), min (c.value 1) (c.value 3),
    max (c.value 0) (c.value 2), max (c.value 1) (c.value 3)]
  bbox_px := [px (min (c.value 0) (c.value 2)) w, px (min (c.value 1) (c.value 3)) h,
    px (max (c.value 0) (c.value 2)) w, px (max (c.value 1) (c.value 3)) h]

/-- The point of two coordinates. -/
def Coords.toPoint (c : Coords 2) (label : Str) (w h : Nat) : Point where
  label := label
  point_norm := [c.value 0, c.value 1]
  point_px := [px (c.value 0) w, px (c.value 1) h]

/-- The coordinates of a block, if it has any. -/
def TrainedBlock.coords? {n : Nat} : TrainedBlock n → Option (Coords n)
  | coords c => some c
  | none => Option.none

/-- What the groups ask for: their boxes, in order, each under its label. An abstention among
    them asks for nothing. -/
def detections (w h : Nat) (items : List (Label × TrainedBlock 4)) : List Detection :=
  items.filterMap fun x => x.2.coords?.map fun c => c.toDetection x.1.text w h

def points (label : Str) (w h : Nat) (bs : List (TrainedBlock 2)) : List Point :=
  bs.filterMap fun b => b.coords?.map fun c => c.toPoint label w h

def Group.items (g : Group) : List (Label × TrainedBlock 4) := g.blocks.map fun b => (g.label, b)

/-- The items of the groups. -/
def items (gs : List Group) : List (Label × TrainedBlock 4) := gs.flatMap Group.items

variable {n : Nat}

@[simp] theorem blocksText_nil : blocksText ([] : List (TrainedBlock n)) = [] := rfl

@[simp] theorem blocksText_cons (b : TrainedBlock n) (bs : List (TrainedBlock n)) :
    blocksText (b :: bs) = b.text ++ blocksText bs := rfl

@[simp] theorem groupsText_nil : groupsText [] = [] := rfl

@[simp] theorem groupsText_cons (g : Group) (gs : List Group) :
    groupsText (g :: gs) = g.text ++ groupsText gs := rfl

@[simp] theorem items_nil : items [] = [] := rfl

@[simp] theorem items_cons (g : Group) (gs : List Group) :
    items (g :: gs) = g.items ++ items gs := rfl

/-! ## One block -/

theorem none_fresh : ¬ boxClose <:+: ['N', 'o', 'n', 'e'] := by decide

/-- A trained block as a closed block. -/
def TrainedBlock.block : TrainedBlock n → Block
  | coords c => Block.ofCoords c.digits
  | none => ⟨['N', 'o', 'n', 'e'], none_fresh⟩

@[simp] theorem TrainedBlock.text_block (b : TrainedBlock n) : b.block.text = b.text := by
  cases b <;> rfl

/-- A trained block as a sibling of a run. -/
def TrainedBlock.sibling (b : TrainedBlock n) : Sibling := ⟨[], by simp, b.block⟩

theorem siblingsText_map_sibling (bs : List (TrainedBlock n)) :
    siblingsText (bs.map TrainedBlock.sibling) = blocksText bs := by
  induction bs with
  | nil => rfl
  | cons b bs ih =>
    rw [List.map_cons, siblingsText_cons, ih, blocksText_cons]
    simp [Sibling.text, TrainedBlock.sibling]

/-- The run of a group. -/
def Group.run (g : Group) : RefRun where
  label := g.label.text
  label_ok := g.label.no_lt
  siblings := g.blocks.map TrainedBlock.sibling
  ne_nil := by simpa using g.ne_nil

@[simp] theorem Group.boxes_run (g : Group) : g.run.boxes = blocksText g.blocks :=
  siblingsText_map_sibling g.blocks

@[simp] theorem Group.text_run (g : Group) : g.run.text = g.text := by
  rw [RefRun.text, Group.boxes_run]; rfl

theorem onContract_block (b : TrainedBlock n) (hn : n = 4 ∨ n = 2) : onContract b.text = true := by
  simp only [onContract, Bool.or_eq_true]
  cases b with
  | none => exact Or.inr (fullmatch_noneRe.mpr (Or.inl rfl))
  | coords c =>
    have hfull : (coordBlockRe n).fullmatch (coordBlock c.digits) = true :=
      fullmatch_coordBlockRe.mpr ⟨c.digits, c.length_eq, rfl⟩
    rcases hn with rfl | rfl
    · exact Or.inl (Or.inl hfull)
    · exact Or.inl (Or.inr hfull)

/-- The groups a scan for `m`-blocks reads in one block: its own, if it has `m` coordinates.
    The scans for boxes and for points run over the same text, so each has to be known on the
    other's blocks. -/
def TrainedBlock.vals (m : Nat) (b : TrainedBlock n) : List (List (Capture Char)) :=
  if m = n then (b.coords?.map fun c => coordCaptures 1 5 c.digits).toList else []

theorem finditer_noneBlock (m : Nat) : (coordBlockRe m).finditer noneBlock = [] := by
  have hinner : ∀ k : Fin 15, k.val ≠ 0 → ¬ ['<', 'b'] <+: noneBlock.drop k.val := by decide
  rw [List.eq_nil_iff_forall_not_mem]
  intro x hx
  obtain ⟨ds, -, ⟨t, ht⟩, -⟩ := exists_of_mem_finditer hx
  have hb := scanFrom_bounds (proper_coordBlockRe m) noneBlock hx
  have hlen : noneBlock.length = 15 := rfl
  by_cases h0 : x.start = 0
  · rw [h0, List.drop_zero, noneBlock, coordBlock, List.append_assoc] at ht
    have ht' := List.append_cancel_left ht
    cases ds <;> simp [boxClose] at ht'
  · refine hinner ⟨x.start, by omega⟩ h0 ?_
    rw [ht]
    exact ⟨_, rfl⟩

theorem map_val_finditer_block (m : Nat) (b : TrainedBlock n) :
    ((coordBlockRe m).finditer b.text).map Found.val = b.vals m := by
  cases b with
  | none =>
    rw [show (TrainedBlock.none : TrainedBlock n).text = noneBlock from rfl, finditer_noneBlock]
    simp [TrainedBlock.vals, TrainedBlock.coords?]
  | coords c =>
    have hread : ∀ k, c.digits.length = k → (coordBlockRe k).read (coordBlock c.digits ++ [])
        = some (coordCaptures 1 5 c.digits, (coordBlock c.digits).length) :=
      fun k hk => read_coordBlockRe.mpr ⟨c.digits, hk, [], rfl, rfl, rfl⟩
    have hne : coordBlock c.digits ≠ [] := List.length_pos_iff.mp (length_coordBlock_pos _)
    have hown : (coordBlockRe n).finditer (coordBlock c.digits)
        = [⟨0, (coordBlock c.digits).length, coordCaptures 1 5 c.digits⟩] := by
      have := @scanFrom_token _ _ _ _ _ _ 0 hne (hread n c.length_eq)
      simpa [Regex.finditer] using this
    by_cases hm : m = n
    · subst hm
      rw [show (TrainedBlock.coords c).text = coordBlock c.digits from rfl, hown]
      simp [TrainedBlock.vals, TrainedBlock.coords?]
    -- a block of another arity would overlap the one that is there
    · rw [TrainedBlock.vals, if_neg hm, List.map_eq_nil_iff, List.eq_nil_iff_forall_not_mem]
      intro x hx
      have hb := scanFrom_bounds (proper_coordBlockRe m) _ hx
      have := Found.not_overlaps_iff.mp <| not_overlaps_of_ne hm hx (by
        rw [show (TrainedBlock.coords c).text = coordBlock c.digits from rfl, hown]
        exact List.mem_singleton_self _)
      simp only [TrainedBlock.text] at hb this
      omega

/-! ## Complete blocks and a rest -/

/-- No pass reads anything in a text without `</box>`. -/
theorem quiet_of_no_close {f : Recogniser Char (List (Capture Char))}
    (hf : ∀ s r, f s = some r → boxClose <:+: s) {t : Str} (ht : ¬ boxClose <:+: t) :
    Quiet f t [] := by
  intro x _ hx
  cases hr : f (x ++ []) with
  | none => rfl
  | some r =>
    have := hf _ _ hr
    rw [List.append_nil] at this
    exact absurd (this.trans hx.isInfix) ht

theorem close_of_read_coordBlockRe (s : Str) (r : List (Capture Char) × Nat)
    (h : (coordBlockRe n).read s = some r) : boxClose <:+: s := by
  obtain ⟨gs, len⟩ := r
  obtain ⟨ds, -, t, rfl, -⟩ := read_coordBlockRe.mp h
  exact ⟨boxOpen ++ coordsText ds, t, by simp [coordBlock]⟩

theorem close_of_read_anyBoxRe (s : Str) (r : List (Capture Char) × Nat)
    (h : anyBoxRe.read s = some r) : boxClose <:+: s := by
  obtain ⟨gs, len⟩ := r
  obtain ⟨b, t, rfl, -⟩ := read_anyBoxRe.mp h
  exact ⟨boxOpen ++ b.body, t, by simp [Block.text]⟩

theorem close_of_read_refRunRe (s : Str) (r : List (Capture Char) × Nat)
    (h : refRunRe.read s = some r) : boxClose <:+: s := by
  obtain ⟨gs, len⟩ := r
  obtain ⟨k, t, rfl, -⟩ := read_refRunRe.mp h
  obtain ⟨z, hz⟩ := exists_boxes_eq k
  exact ⟨refTag k.label ++ z, t, by rw [RefRun.text, hz]; simp⟩

theorem Block.boxOpen_prefix (s : Str) (r : List (Capture Char) × Nat)
    (h : anyBoxRe.read s = some r) : boxOpen <+: s := by
  obtain ⟨gs, len⟩ := r
  obtain ⟨b, t, rfl, -⟩ := read_anyBoxRe.mp h
  exact ⟨b.body ++ (boxClose ++ t), by simp [Block.text]⟩

/-- A scan goes through the complete blocks one by one, and arrives at the rest. -/
theorem map_val_scan_blocks (m : Nat) (bs : List (TrainedBlock n)) (v : Str) :
    ((coordBlockRe m).finditer (blocksText bs ++ v)).map Found.val
      = bs.flatMap (TrainedBlock.vals m) ++ ((coordBlockRe m).finditer v).map Found.val := by
  induction bs with
  | nil => rfl
  | cons b bs ih =>
    obtain ⟨z, hz⟩ := b.block.text_eq_close
    rw [TrainedBlock.text_block] at hz
    have hcut : Cut (coordBlockRe m).read b.text (blocksText bs ++ v) := by
      rw [hz]; exact cut_after_close
    rw [blocksText_cons, List.append_assoc, Regex.finditer,
      scanFrom_append (proper_coordBlockRe m) b.text hcut (Nat.zero_le _), List.map_append,
      map_val_scanFrom (blocksText bs ++ v), List.flatMap_cons, List.append_assoc]
    rw [Regex.finditer] at ih
    rw [ih, ← map_val_finditer_block]
    rfl

theorem wholes_blocks (bs : List (TrainedBlock n)) (v : Str) :
    wholes anyBoxRe (blocksText bs ++ v) = bs.map TrainedBlock.text ++ wholes anyBoxRe v := by
  induction bs with
  | nil => rfl
  | cons b bs ih =>
    have hread : anyBoxRe.read (b.text ++ (blocksText bs ++ v)) = some ([], b.text.length) :=
      read_anyBoxRe.mpr ⟨b.block, _, by rw [b.text_block], rfl, by rw [b.text_block]⟩
    have hne : b.text ≠ [] := by
      rw [← b.text_block, ← List.length_pos_iff, Block.length_text]; omega
    rw [blocksText_cons, List.append_assoc, wholes_token hne hread, ih]
    rfl

/-- In the order of the text, the closed blocks of an answer are those of its groups: no tag
    holds one. -/
theorem wholes_groups (gs : List Group) (v : Str) :
    wholes anyBoxRe (groupsText gs ++ v)
      = ((items gs).map fun x => x.2.text) ++ wholes anyBoxRe v := by
  induction gs with
  | nil => rfl
  | cons g gs ih =>
    rw [groupsText_cons, Group.text, List.append_assoc, List.append_assoc,
      wholes_quiet_append (quiet_refTag Block.boxOpen_prefix g.label.no_lt), wholes_blocks, ih,
      items_cons, List.map_append, Group.items, List.map_map, List.append_assoc]
    rfl

/-- Behind a group comes another tag or a rest without `</box>`: no further sibling. This is
    what keeps the greedy loop inside its group. -/
theorem noSibling_groups (gs : List Group) {v : Str} (hv : ¬ boxClose <:+: v) :
    NoSibling (groupsText gs ++ v) := by
  intro x r h
  cases gs with
  | nil =>
    obtain ⟨z, hz⟩ := x.text_eq_close
    rw [groupsText_nil, List.nil_append, hz] at h
    exact hv ⟨z, r, h.symm⟩
  | cons g gs =>
    simp only [groupsText_cons, Group.text, refTag, refOpen, Sibling.text, Block.text, boxOpen,
      List.append_assoc, List.cons_append] at h
    cases hs : x.space with
    | nil => rw [hs] at h; simp at h
    | cons c sp =>
      rw [hs] at h
      simp only [List.cons_append, List.cons.injEq] at h
      have := x.space_ok c (by rw [hs]; simp)
      rw [← h.1] at this
      exact absurd this (by decide)

/-- The runs of the text are the groups, each with all of its blocks. -/
theorem map_val_scan_groups (gs : List Group) {v : Str} (hv : ¬ boxClose <:+: v) :
    (refRunRe.finditer (groupsText gs ++ v)).map Found.val = gs.map fun g => g.run.captures := by
  induction gs with
  | nil =>
    rw [groupsText_nil, List.nil_append, Regex.finditer,
      scanFrom_of_quiet (quiet_of_no_close close_of_read_refRunRe hv)]
    rfl
  | cons g gs ih =>
    have hread : refRunRe.read (g.text ++ (groupsText gs ++ v))
        = some (g.run.captures, g.text.length) :=
      read_refRunRe.mpr ⟨g.run, _, by rw [g.text_run], noSibling_groups gs hv, rfl,
        by rw [g.text_run]⟩
    have hne : g.text ≠ [] := by simp [Group.text, refTag, refOpen]
    rw [groupsText_cons, List.append_assoc, Regex.finditer, scanFrom_token hne hread,
      List.map_cons, map_val_scanFrom]
    rw [Regex.finditer] at ih
    rw [ih]
    rfl

/-! ## What the passes make of a block -/

theorem clampCoord_of_le {v : Nat} (h : v ≤ 1000) : clampCoord v = v := by
  unfold clampCoord
  split
  · omega
  · split <;> omega

/-- On coordinates within the grid the parser's clamp does nothing, so what it builds is what
    was asked for. -/
theorem boxOf_coords (c : Coords 4) (label : Str) (w h i j : Nat) :
    boxOf label w h ⟨i, j, coordCaptures 1 5 c.digits⟩ = c.toDetection label w h := by
  obtain ⟨ds, hlen, hle⟩ := c
  match ds, hlen with
  | [d1, d2, d3, d4], _ =>
    have h1 := clampCoord_of_le (hle d1 (by simp))
    have h2 := clampCoord_of_le (hle d2 (by simp))
    have h3 := clampCoord_of_le (hle d3 (by simp))
    have h4 := clampCoord_of_le (hle d4 (by simp))
    simp [boxOf, makeBox, coordCaptures, Match.group, Coords.toDetection, Coords.value, h1, h2, h3,
      h4]

theorem pointOf_coords (c : Coords 2) (label : Str) (w h i j : Nat) :
    pointOf label w h ⟨i, j, coordCaptures 1 5 c.digits⟩ = c.toPoint label w h := by
  obtain ⟨ds, hlen, hle⟩ := c
  match ds, hlen with
  | [d1, d2], _ =>
    have h1 := clampCoord_of_le (hle d1 (by simp))
    have h2 := clampCoord_of_le (hle d2 (by simp))
    simp [pointOf, makePoint, coordCaptures, Match.group, Coords.toPoint, Coords.value, h1, h2]

/-! ## The passes on complete blocks and a rest -/

theorem length_vals (m : Nat) (b : TrainedBlock n) :
    ((coordBlockRe m).finditer b.text).length = (b.vals m).length := by
  rw [← map_val_finditer_block, List.length_map]

theorem length_vals_of_ne {m : Nat} (hm : m ≠ n) (b : TrainedBlock n) : (b.vals m).length = 0 := by
  rw [TrainedBlock.vals, if_neg hm]; rfl

/-- Every block of `m` coordinates is a closed block, so counting may be done one closed block
    at a time. -/
theorem length_finditer_of_wholes {m : Nat} {s : Str} {bs : List (TrainedBlock n)}
    (h : wholes anyBoxRe s = bs.map TrainedBlock.text) :
    ((coordBlockRe m).finditer s).length = (bs.map fun b => (b.vals m).length).sum := by
  rw [length_finditer_coordBlockRe, h, List.map_map]
  congr 1
  exact List.map_congr_left fun b _ => length_vals m b

/-- A trained block is one of the three forms, so none is malformed, whether it has four
    coordinates or two. -/
theorem countMalformedGeometry_of_wholes {s : Str} {bs : List (TrainedBlock n)}
    (hn : n = 4 ∨ n = 2) (h : wholes anyBoxRe s = bs.map TrainedBlock.text) :
    countMalformedGeometry s = 0 := by
  rw [countMalformedGeometry_eq, h, List.map_map, List.sum_eq_zero_iff_forall_eq_nat]
  intro x hx
  obtain ⟨b, -, rfl⟩ := List.mem_map.mp hx
  simp [onContract_block b hn]

theorem wholes_rest {v : Str} (hv : ¬ boxClose <:+: v) : wholes anyBoxRe v = [] :=
  wholes_quiet (quiet_of_no_close close_of_read_anyBoxRe hv)

theorem finditer_rest (m : Nat) {v : Str} (hv : ¬ boxClose <:+: v) :
    (coordBlockRe m).finditer v = [] :=
  scanFrom_of_quiet (quiet_of_no_close close_of_read_coordBlockRe hv)

theorem map_val_blocks (m : Nat) (bs : List (TrainedBlock n)) {v : Str}
    (hv : ¬ boxClose <:+: v) :
    ((coordBlockRe m).finditer (blocksText bs ++ v)).map Found.val
      = bs.flatMap (TrainedBlock.vals m) := by
  rw [map_val_scan_blocks, finditer_rest m hv, List.map_nil, List.append_nil]

/-- One group: every block with coordinates becomes a box under the group's label. -/
theorem boxesOfRun_group (g : Group) (w h : Nat) :
    (boxesOfRun w h ⟨0, 0, g.run.captures⟩).1 = detections w h g.items := by
  have hlabel : runLabel ⟨0, 0, g.run.captures⟩ = g.label.text := by
    rw [runLabel, group_label]; exact g.label.strip_eq
  have hvals := map_val_blocks 4 g.blocks (v := []) (by decide)
  rw [List.append_nil] at hvals
  have hmap : (boxRe.finditer (blocksText g.blocks)).map (boxOf g.label.text w h)
      = ((boxRe.finditer (blocksText g.blocks)).map Found.val).map
          fun cs => boxOf g.label.text w h ⟨0, 0, cs⟩ := by
    rw [List.map_map]; rfl
  rw [boxesOfRun, hlabel, if_neg g.label.ne_nil, group_boxes, Group.boxes_run]
  simp only
  rw [hmap, boxRe, hvals, detections, Group.items]
  induction g.blocks with
  | nil => rfl
  | cons b bs ih =>
    rw [List.flatMap_cons, List.map_append, ih, List.map_cons]
    cases b with
    | none => rfl
    | coords c =>
      simp only [TrainedBlock.vals, TrainedBlock.coords?, if_true, Option.map_some,
        Option.toList_some, List.map_cons, List.map_nil, List.singleton_append, boxOf_coords]
      rfl

theorem detections_append (w h : Nat) (xs ys : List (Label × TrainedBlock 4)) :
    detections w h (xs ++ ys) = detections w h xs ++ detections w h ys :=
  List.filterMap_append

theorem length_detections (w h : Nat) (xs : List (Label × TrainedBlock 4)) :
    (detections w h xs).length = (xs.map fun x => (x.2.vals 4).length).sum := by
  induction xs with
  | nil => rfl
  | cons x xs ih =>
    obtain ⟨l, b⟩ := x
    rw [List.map_cons, List.sum_cons, ← ih]
    cases b with
    | none =>
      show _ = 0 + _
      rw [Nat.zero_add]
      rfl
    | coords c =>
      show _ = 1 + _
      rw [Nat.add_comm]
      rfl

/-- **Groups and a rest are parsed to the boxes of the groups.** -/
theorem parseAnswer_groups (gs : List Group) {v : Str} (hv : ¬ boxClose <:+: v) (w h : Nat)
    (pl : Option Str) :
    parseAnswer (groupsText gs ++ v) w h pl = ⟨detections w h (items gs), 0, [], 0, 0⟩ := by
  have hwholes : wholes anyBoxRe (groupsText gs ++ v)
      = ((items gs).map Prod.snd).map TrainedBlock.text := by
    rw [wholes_groups, wholes_rest hv, List.append_nil, List.map_map]
    rfl
  have hboxes : (parseBoxes (groupsText gs ++ v) w h).1 = detections w h (items gs) := by
    have hruns : (refRunRe.finditer (groupsText gs ++ v)).flatMap
          (fun m => (boxesOfRun w h m).1)
        = ((refRunRe.finditer (groupsText gs ++ v)).map Found.val).flatMap
          fun cs => (boxesOfRun w h ⟨0, 0, cs⟩).1 := by
      rw [List.flatMap_map]; rfl
    rw [parseBoxes, hruns, map_val_scan_groups gs hv]
    induction gs with
    | nil => rfl
    | cons g gs ih =>
      rw [List.map_cons, List.flatMap_cons, boxesOfRun_group, items_cons, detections_append]
      exact congrArg _ (ih (by rw [wholes_groups, wholes_rest hv, List.append_nil, List.map_map]
                               rfl) (by rw [List.flatMap_map]; rfl))
  have hoff : (parseBoxes (groupsText gs ++ v) w h).2 = 0 := by
    have hlen := length_parseBoxes (groupsText gs ++ v) w h
    rw [hboxes, length_detections, boxRe, length_finditer_of_wholes hwholes, List.map_map] at hlen
    simp only [Function.comp_def] at hlen
    omega
  have hpoints : (parsePoints (groupsText gs ++ v) w h pl).1.length
      + (parsePoints (groupsText gs ++ v) w h pl).2 = 0 := by
    rw [length_parsePoints, pointRe, length_finditer_of_wholes hwholes,
      List.sum_eq_zero_iff_forall_eq_nat]
    intro x hx
    obtain ⟨b, -, rfl⟩ := List.mem_map.mp hx
    exact length_vals_of_ne (by decide) b
  have hmal := countMalformedGeometry_of_wholes (Or.inl rfl) hwholes
  simp only [parseAnswer, hboxes, hoff, hmal, Tally.mk.injEq, true_and, and_true]
  exact ⟨List.length_eq_zero_iff.mp (by omega), by omega⟩

/-! ### Bare points -/

theorem r_notMem_numeral (ds : List Numeral) : 'r' ∉ coordsText ds := by
  induction ds with
  | nil => simp
  | cons d ds ih =>
    rw [coordsText_cons]
    simp only [List.mem_cons, List.mem_append, not_or]
    exact ⟨by decide, notMem_numeral (by decide) d, by decide, ih⟩

/-- No `<ref>` can be spelled with the letters of blocks. -/
theorem r_notMem_blocksText (bs : List (TrainedBlock n)) : 'r' ∉ blocksText bs := by
  induction bs with
  | nil => simp
  | cons b bs ih =>
    rw [blocksText_cons, List.mem_append, not_or]
    refine ⟨?_, ih⟩
    cases b with
    | none => show 'r' ∉ noneBlock; decide
    | coords c =>
      show 'r' ∉ coordBlock c.digits
      rw [coordBlock]
      simp only [List.mem_append, not_or]
      exact ⟨by decide, r_notMem_numeral _, by decide⟩

theorem finditer_refRunRe_eq_nil {s : Str} (hs : 'r' ∉ s) : refRunRe.finditer s = [] := by
  refine scanFrom_of_quiet fun x _ hx => ?_
  cases hr : refRunRe.read (x ++ []) with
  | none => rfl
  | some r =>
    obtain ⟨gs, len⟩ := r
    obtain ⟨k, t, ht, -⟩ := read_refRunRe.mp hr
    rw [List.append_nil] at ht
    exact absurd (hx.subset (by rw [ht]; simp [RefRun.text, refTag, refOpen])) hs

/-- The points of blocks are those of their coordinates, wherever they were found. -/
theorem flatMap_vals_points (label : Str) (w h : Nat) (bs : List (TrainedBlock 2)) :
    (bs.flatMap (TrainedBlock.vals 2)).map (fun cs => pointOf label w h ⟨0, 0, cs⟩)
      = points label w h bs := by
  unfold points
  induction bs with
  | nil => rfl
  | cons b bs ih =>
    rw [List.flatMap_cons, List.map_append, ih]
    cases b with
    | none => rfl
    | coords c =>
      simp only [TrainedBlock.vals, TrainedBlock.coords?, if_true, Option.map_some,
        Option.toList_some, List.map_cons, List.map_nil, List.singleton_append, pointOf_coords]
      rfl

/-- Without an `r` there is no tag. -/
theorem refRunRe_blocks (bs : List (TrainedBlock n)) {v : Str} (hr : 'r' ∉ v) :
    refRunRe.finditer (blocksText bs ++ v) = [] := by
  apply finditer_refRunRe_eq_nil
  rw [List.mem_append, not_or]
  exact ⟨r_notMem_blocksText bs, hr⟩

/-- Bare blocks hold no boxes, … -/
theorem parseBoxes_blocks (bs : List (TrainedBlock 2)) {v : Str} (hv : ¬ boxClose <:+: v)
    (w h : Nat) :
    (parseBoxes (blocksText bs ++ v) w h).1.length + (parseBoxes (blocksText bs ++ v) w h).2
      = 0 := by
  have hwholes : wholes anyBoxRe (blocksText bs ++ v) = bs.map TrainedBlock.text := by
    rw [wholes_blocks, wholes_rest hv, List.append_nil]
  rw [length_parseBoxes, boxRe, length_finditer_of_wholes hwholes,
    List.sum_eq_zero_iff_forall_eq_nat]
  intro x hx
  obtain ⟨b, -, rfl⟩ := List.mem_map.mp hx
  exact length_vals_of_ne (by decide) b

/-- … and a point for every numeric one. -/
theorem parsePoints_blocks (bs : List (TrainedBlock 2)) {v : Str} (hv : ¬ boxClose <:+: v)
    (hr : 'r' ∉ v) {label : Str} (hl : label ≠ []) (w h : Nat) :
    parsePoints (blocksText bs ++ v) w h (some label) = (points label w h bs, 0) := by
  have hruns := refRunRe_blocks bs hr
  have htruthy : truthy (some label) = some label := by
    cases label with
    | nil => exact absurd rfl hl
    | cons c l => rfl
  have horphans : orphans 2 (blocksText bs ++ v)
      = (coordBlockRe 2).finditer (blocksText bs ++ v) := by
    rw [orphans, hruns, List.filter_eq_self]
    intro m _
    rfl
  have hmap : ((coordBlockRe 2).finditer (blocksText bs ++ v)).map (pointOf label w h)
      = points label w h bs := by
    rw [← flatMap_vals_points, ← map_val_blocks 2 bs hv, List.map_map]
    rfl
  rw [parsePoints_eq, htruthy, labelledBlocks, unlabelledBlocks, hruns, horphans]
  refine Prod.ext ?_ rfl
  simp only [List.flatMap_nil, List.map_nil, List.nil_append]
  exact hmap

/-- **Bare blocks and a rest are parsed to the points of the blocks**, under the label given. -/
theorem parseAnswer_blocks (bs : List (TrainedBlock 2)) {v : Str} (hv : ¬ boxClose <:+: v)
    (hr : 'r' ∉ v) {label : Str} (hl : label ≠ []) (w h : Nat) :
    parseAnswer (blocksText bs ++ v) w h (some label) = ⟨[], 0, points label w h bs, 0, 0⟩ := by
  have hwholes : wholes anyBoxRe (blocksText bs ++ v) = bs.map TrainedBlock.text := by
    rw [wholes_blocks, wholes_rest hv, List.append_nil]
  have hboxes := parseBoxes_blocks bs hv w h
  have hpoints := parsePoints_blocks bs hv hr hl w h
  have hmal := countMalformedGeometry_of_wholes (Or.inr rfl) hwholes
  simp only [parseAnswer, hpoints, hmal, Tally.mk.injEq, and_true]
  exact ⟨List.length_eq_zero_iff.mp (by omega), by omega⟩

end LocateAnything.Worker
