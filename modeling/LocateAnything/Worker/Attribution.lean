import LocateAnything.Worker.Passes

/-!
# Which tag labels a block

An item takes its label from the run it stands in. A run goes on as long as a sibling block
follows, and a sibling is a `<box>`, *anything*, and the first `</box>`: an opener left unclosed
swallows whatever comes before that `</box>`, the next category's `<ref>` tag included. The
blocks behind such a tag are then labelled by the run and not by the tag in front of them.

`label_attribution` says that nothing else can go wrong: the tag that labels a block is the last
one in front of it unless closed blocks of the run hold the two ends of a whole tag (`Swallows`).

A tag here is a `<ref>` and a `</ref>` behind it with **any** text between them, although the
expression for a run takes only a label without `<`: the question is which tag a reader of the
answer would take for the last one, and not which one the expression could have taken. A tag may
therefore begin in one closed block of the run and end in a later one, and what is found of it
in the blocks are its ends (`exists_span_of_word`).
-/

set_option autoImplicit false

namespace LocateAnything.Worker

open LocateAnything.Regex LocateAnything.Scan LocateAnything.Words Py

/-- A `<ref>label</ref>` stands in the text, whatever the label. -/
def HoldsTag (s : Str) : Prop := ∃ label, refTag label <:+: s

/-- The text of the answer between the `</ref>` of the labelling run and the block. -/
def between (answer : Str) (p : Match Char × Match Char) : Str :=
  (answer.drop (p.1.startOf boxesGroup)).take (p.2.start - p.1.startOf boxesGroup)

/-- The run's tag is the last one in front of the block. -/
def LabelledByLastTag (answer : Str) (p : Match Char × Match Char) : Prop :=
  ¬ HoldsTag (between answer p)

/-- The text holds a box or a point. -/
def HoldsBlock (s : Str) : Prop := boxRe.finditer s ≠ [] ∨ pointRe.finditer s ≠ []

/-- A closed block of the group text holds a `<ref>`, the same one or a later one a `</ref>` that
    stands behind it, and `P` holds of what is behind that `</ref>`. The blocks of a well-formed
    answer hold nothing but coordinates or `None`, so it takes an opener without its own `</box>`
    for a block to hold either. -/
def SwallowsBefore (P : Str → Prop) (boxes : Str) : Prop :=
  ∃ opener ∈ anyBoxRe.finditer boxes, ∃ closer ∈ anyBoxRe.finditer boxes, ∃ a b c d,
    opener.whole boxes = a ++ (refOpen ++ b) ∧ closer.whole boxes = c ++ (refClose ++ d) ∧
    opener.start + (a ++ refOpen).length ≤ closer.start + c.length ∧
    P (d ++ boxes.drop closer.stop)

/-- Closed blocks of the group text hold the ends of a tag with a box or a point behind it. -/
def Swallows (boxes : Str) : Prop := SwallowsBefore HoldsBlock boxes

/-! ## A tag's end does not straddle the end of a block -/

/-- A word that starts with `<` and holds no `</box>`, in a text that starts with a closed block,
    stands behind the block or inside it: the last `<` of the block is that of its `</box>`. -/
theorem word_behind_or_inside {z r a w d : Str} (hw : ¬ boxClose <:+: '<' :: w)
    (h : (z ++ boxClose) ++ r = a ++ ('<' :: w ++ d)) :
    (∃ a', a = (z ++ boxClose) ++ a' ∧ r = a' ++ ('<' :: w ++ d)) ∨
    (∃ c, z ++ boxClose = a ++ ('<' :: w ++ c) ∧ d = c ++ r) := by
  rcases List.append_eq_append_iff.mp h with ⟨a', ha, hr⟩ | ⟨y, hy, hd⟩
  · exact Or.inl ⟨a', ha, hr⟩
  rcases List.append_eq_append_iff.mp hd with ⟨c, rfl, hd'⟩ | ⟨y', hword, hr⟩
  · exact Or.inr ⟨c, hy, hd'⟩
  -- The border cuts the word into `y` and `y'`.
  cases y with
  | nil =>
    rw [List.append_nil] at hy
    exact Or.inl ⟨[], by rw [← hy, List.append_nil], by rw [hword]; simpa using hr⟩
  | cons e y =>
    exfalso
    obtain rfl : e = '<' := by
      simp only [List.cons_append, List.cons.injEq] at hword
      exact hword.1.symm
    obtain ⟨p, q, hpq, hq⟩ := exists_last (List.mem_cons_self (a := '<') (l := y))
    have hlast : z ++ '<' :: ['/', 'b', 'o', 'x', '>'] = (a ++ p) ++ '<' :: q := by
      rw [hpq] at hy
      simpa [boxClose] using hy
    obtain ⟨-, rfl⟩ := append_cons_inj_last (by decide) hq hlast
    refine hw ⟨p, y', ?_⟩
    rw [hword, hpq]
    simp [boxClose]

theorem quiet_space {v : Str} (x : Sibling) : Quiet anyBoxRe.read x.space v := by
  intro s hs hsuf
  cases hr : anyBoxRe.read (s ++ v) with
  | none => rfl
  | some r =>
    obtain ⟨gs, len⟩ := r
    obtain ⟨b, t, ht, -⟩ := read_anyBoxRe.mp hr
    obtain ⟨c, s, rfl⟩ := List.exists_cons_of_ne_nil hs
    simp only [Block.text, boxOpen, List.cons_append, List.cons.injEq] at ht
    have := x.space_ok c (hsuf.subset (by simp))
    rw [ht.1] at this
    exact absurd this (by decide)

theorem finditer_siblingsText (x : Sibling) (xs : List Sibling) :
    anyBoxRe.finditer (siblingsText (x :: xs))
      = ⟨x.space.length, x.text.length, []⟩
        :: (anyBoxRe.finditer (siblingsText xs)).map (Found.shift x.text.length) := by
  have hne : x.block.text ≠ [] := by
    rw [← List.length_pos_iff, Block.length_text]; omega
  have hread : anyBoxRe.read (x.block.text ++ siblingsText xs)
      = some ([], x.block.text.length) := read_anyBoxRe.mpr ⟨x.block, _, rfl, rfl, rfl⟩
  rw [siblingsText_cons, Sibling.text, List.append_assoc, Regex.finditer,
    scanFrom_step (quiet_space x) hne hread, scanFrom_eq_shift, Nat.zero_add, List.length_append]
  rfl

/-- **An end of a tag in the text of a run lies inside one of its closed blocks**, at the same
    place: between the blocks there is only white space. -/
theorem exists_span_of_word {w : Str} (hw : ¬ boxClose <:+: '<' :: w) (xs : List Sibling) :
    ∀ {a d : Str}, siblingsText xs = a ++ ('<' :: w ++ d) →
    ∃ span ∈ anyBoxRe.finditer (siblingsText xs), ∃ a' c,
      span.whole (siblingsText xs) = a' ++ ('<' :: w ++ c) ∧
      span.start + a'.length = a.length ∧ d = c ++ (siblingsText xs).drop span.stop := by
  induction xs with
  | nil =>
    intro a d h
    have := congrArg List.length h
    simp only [siblingsText_nil, List.length_nil, List.length_append, List.length_cons] at this
    omega
  | cons x xs ih =>
    intro a d h
    obtain ⟨z, hz⟩ := x.text_eq_close
    have hdrop : (siblingsText (x :: xs)).drop x.text.length = siblingsText xs := by
      rw [siblingsText_cons, List.drop_left]
    rw [siblingsText_cons, hz] at h
    rcases word_behind_or_inside hw h with ⟨a', rfl, h'⟩ | ⟨c, h', rfl⟩
    · obtain ⟨span, hspan, a'', c, hwhole, hstart, hd⟩ := ih h'
      refine ⟨span.shift x.text.length, ?_, a'', c, ?_, ?_, ?_⟩
      · rw [finditer_siblingsText]
        exact List.mem_cons_of_mem _ (List.mem_map_of_mem hspan)
      · rw [siblingsText_cons, whole_shift, hwhole]
      · rw [← hz, Found.shift_start, List.length_append]
        omega
      · rw [hd, Found.shift_stop, Nat.add_comm, ← List.drop_drop, hdrop]
    · rw [← hz, Sibling.text] at h'
      have hno : '<' ∉ x.space := fun hm => absurd (x.space_ok _ hm) (by decide)
      obtain ⟨a', rfl, hblock⟩ := split_of_notMem (c := '<') x.space hno
        (a := a) (b := w ++ c) (by rw [h']; simp)
      refine ⟨_, by rw [finditer_siblingsText]; exact List.mem_cons_self, a', c, ?_, ?_, ?_⟩
      · rw [Match.whole, siblingsText_cons, Sibling.text, List.append_assoc, List.drop_left,
          List.length_append, Nat.add_sub_cancel_left, List.take_left, hblock]
        simp
      · rw [List.length_append]
      · rw [hdrop]

/-- What stands in front of a place in a closed block, and what behind it. -/
theorem split_at_span {s : Str} {span : Match Char} (h : span ∈ anyBoxRe.finditer s)
    {a w c : Str} (hwhole : span.whole s = a ++ (w ++ c)) :
    s = (s.take span.start ++ a) ++ (w ++ (c ++ s.drop span.stop)) ∧
      (s.take span.start ++ a).length = span.start + a.length := by
  have hb := scanFrom_bounds proper_anyBoxRe _ h
  constructor
  · have hrest : s.drop span.start = a ++ (w ++ c) ++ s.drop span.stop := by
      rw [← hwhole, Match.whole]
      conv_lhs => rw [← List.take_append_drop (span.stop - span.start) (s.drop span.start)]
      rw [List.drop_drop, Nat.add_sub_cancel' (by omega)]
    conv_lhs => rw [← List.take_append_drop span.start s, hrest]
    simp only [List.append_assoc]
  · rw [List.length_append, List.length_take]
    omega

/-! ## Blocks behind a tag -/

theorem finditer_ne_nil_of_infix {n : Nat} {ds : List Numeral} (hds : ds.length = n) {s : Str}
    (h : coordBlock ds <:+: s) : (coordBlockRe n).finditer s ≠ [] := by
  obtain ⟨p, t, rfl⟩ := h
  rcases quiet_or_token (proper_coordBlockRe n) (p ++ coordBlock ds ++ t) with hq | hq
  · have hread : (coordBlockRe n).read (coordBlock ds ++ t ++ [])
        = some (coordCaptures 1 5 ds, (coordBlock ds).length) :=
      read_coordBlockRe.mpr ⟨ds, hds, t, List.append_nil _, rfl, rfl⟩
    rw [hq _ (by simp [coordBlock, boxOpen])
      ⟨p, by rw [List.append_assoc]⟩] at hread
    exact absurd hread (by simp)
  · obtain ⟨u, w, v, b, hs, hu, hw, hr⟩ := hq
    rw [hs, Regex.finditer, scanFrom_step hu hw hr]
    simp

/-- Behind a `</ref>` the scan for blocks starts afresh. -/
theorem mem_finditer_behind_refClose {n : Nat} {a d : Str}
    (h : (coordBlockRe n).finditer d ≠ []) :
    ∃ b ∈ (coordBlockRe n).finditer (a ++ (refClose ++ d)),
      (a ++ refClose).length ≤ b.start := by
  obtain ⟨b, bs, hb⟩ := List.exists_cons_of_ne_nil h
  refine ⟨b.shift (a ++ refClose).length, ?_, Nat.le_add_left _ _⟩
  rw [← List.append_assoc, Regex.finditer,
    scanFrom_append (proper_coordBlockRe n) (a ++ refClose) cut_after_refClose (Nat.zero_le _),
    scanFrom_eq_shift d, List.mem_append, Nat.zero_add]
  rw [Regex.finditer] at hb
  rw [hb]
  exact Or.inr (List.mem_map_of_mem List.mem_cons_self)

/-- Inside one run: some block has a tag between the run's own and itself exactly when closed
    blocks hold the ends of a tag with a block behind it. -/
theorem exists_block_behind_tag_iff (n : Nat) (xs : List Sibling) :
    (∃ b ∈ (coordBlockRe n).finditer (siblingsText xs),
        HoldsTag ((siblingsText xs).take b.start)) ↔
    SwallowsBefore (fun s => (coordBlockRe n).finditer s ≠ []) (siblingsText xs) := by
  constructor
  · rintro ⟨b, hb, label, p, q, htake⟩
    have hsplit : siblingsText xs = p ++ (refOpen ++ label ++
        (refClose ++ (q ++ (siblingsText xs).drop b.start))) := by
      conv_lhs => rw [← List.take_append_drop b.start (siblingsText xs), ← htake]
      simp only [refTag, List.append_assoc]
    -- each end of the tag is found in a block
    have hopen : siblingsText xs = p ++ ('<' :: ['r', 'e', 'f', '>'] ++ (label ++
        (refClose ++ (q ++ (siblingsText xs).drop b.start)))) := by
      conv_lhs => rw [hsplit]
      simp [refOpen]
    have hclose : siblingsText xs = (p ++ refOpen ++ label) ++ ('<' :: ['/', 'r', 'e', 'f', '>'] ++
        (q ++ (siblingsText xs).drop b.start)) := by
      conv_lhs => rw [hsplit]
      simp [refClose]
    obtain ⟨opener, hopener, a, b', hwhole, hstart, -⟩ :=
      exists_span_of_word (by decide) xs hopen
    obtain ⟨closer, hcloser, c, d, hwhole', hstart', hd⟩ :=
      exists_span_of_word (by decide) xs hclose
    obtain ⟨ds, hds, ⟨t, ht⟩, -⟩ := exists_of_mem_finditer hb
    refine ⟨opener, hopener, closer, hcloser, a, b', c, d, hwhole, hwhole', ?_, ?_⟩
    · simp only [List.length_append] at hstart' ⊢
      omega
    · rw [← hd, ht]
      exact finditer_ne_nil_of_infix hds ⟨q, t, by rw [List.append_assoc]⟩
  · rintro ⟨opener, hopener, closer, hcloser, a, b, c, d, hwhole, hwhole', hle, hne⟩
    obtain ⟨hopen, hlen⟩ := split_at_span hopener hwhole
    obtain ⟨hclose, hlen'⟩ := split_at_span hcloser hwhole'
    obtain ⟨m, hmem, hstart⟩ := mem_finditer_behind_refClose
      (a := (siblingsText xs).take closer.start ++ c) hne
    rw [← hclose] at hmem
    -- what stands between the two ends is the label
    have hpre : (siblingsText xs).take opener.start ++ a ++ refOpen
        <+: (siblingsText xs).take closer.start ++ c := by
      have hfront : (siblingsText xs).take opener.start ++ a ++ refOpen <+: siblingsText xs := by
        refine ⟨b ++ (siblingsText xs).drop opener.stop, ?_⟩
        conv_rhs => rw [hopen]
        simp only [List.append_assoc]
      refine List.prefix_of_prefix_length_le hfront ⟨_, hclose.symm⟩ ?_
      · simp only [List.length_append] at hle hlen hlen' ⊢
        omega
    obtain ⟨label, hlabel⟩ := hpre
    have hfront : (siblingsText xs).take opener.start ++ a ++ refTag label
        <+: (siblingsText xs).take m.start := by
      have htag : (siblingsText xs).take opener.start ++ a ++ refTag label
          = (siblingsText xs).take closer.start ++ c ++ refClose := by
        rw [← hlabel]
        simp only [refTag, List.append_assoc]
      rw [htag, List.prefix_take_iff]
      refine ⟨⟨d ++ (siblingsText xs).drop closer.stop, ?_⟩, hstart⟩
      conv_rhs => rw [hclose]
      simp only [List.append_assoc]
    obtain ⟨t, ht⟩ := hfront
    exact ⟨m, hmem, label, (siblingsText xs).take opener.start ++ a, t, ht⟩

/-! ## Runs in an answer -/

theorem exists_run_of_mem {answer : Str} {m : Match Char} (h : m ∈ refRunRe.finditer answer) :
    ∃ r : RefRun, ∃ t, answer.drop m.start = r.text ++ t ∧ m = ⟨m.start, m.stop, r.captures⟩ := by
  obtain ⟨k, hk, -, hr⟩ := scanFrom_reads answer h
  obtain ⟨r, t, ht, -, hgs, -⟩ := read_refRunRe.mp hr
  rw [Nat.zero_add] at hk
  exact ⟨r, t, by rw [hk]; exact ht, by rw [← hgs]⟩

theorem between_shift {answer t : Str} {r : RefRun} {i j : Nat}
    (h : answer.drop i = r.text ++ t) {b : Match Char} (hb : b.start ≤ r.boxes.length) :
    between answer (⟨i, j, r.captures⟩,
        b.shift (Match.startOf ⟨i, j, r.captures⟩ boxesGroup))
      = r.boxes.take b.start := by
  simp only [between, startOf_boxes, Found.shift_start, Nat.add_sub_cancel]
  rw [← List.drop_drop, h, RefRun.text, List.append_assoc, List.drop_left,
    List.take_append_of_le_length hb]

/-- One run: all its blocks are labelled by the last tag, or its closed blocks swallow a tag. -/
theorem run_labelled_iff {answer : Str} {m : Match Char} (hm : m ∈ refRunRe.finditer answer)
    (n : Nat) :
    (∃ b ∈ blocksInRun n m, ¬ LabelledByLastTag answer (m, b)) ↔
    SwallowsBefore (fun s => (coordBlockRe n).finditer s ≠ []) (m.group boxesGroup) := by
  obtain ⟨r, t, ht, hm'⟩ := exists_run_of_mem hm
  rw [hm', group_boxes, show r.boxes = siblingsText r.siblings from rfl,
    ← exists_block_behind_tag_iff]
  constructor
  · rintro ⟨b, hb, hno⟩
    rw [blocksInRun, group_boxes] at hb
    obtain ⟨b', hb', rfl⟩ := List.mem_map.mp hb
    have hle := scanFrom_bounds (proper_coordBlockRe n) _ hb'
    rw [LabelledByLastTag, not_not, between_shift ht (by omega)] at hno
    exact ⟨b', hb', hno⟩
  · rintro ⟨b, hb, hno⟩
    have hle := scanFrom_bounds (proper_coordBlockRe n) _ hb
    refine ⟨b.shift (Match.startOf ⟨m.start, m.stop, r.captures⟩ boxesGroup), ?_, ?_⟩
    · rw [blocksInRun, group_boxes]
      exact List.mem_map_of_mem hb
    · rw [LabelledByLastTag, not_not, between_shift ht (by
        rw [show r.boxes = siblingsText r.siblings from rfl]; omega)]
      exact hno

/-- A box behind the tag, or a point behind it. -/
theorem swallows_iff {boxes : Str} : Swallows boxes ↔
    SwallowsBefore (fun s => boxRe.finditer s ≠ []) boxes ∨
      SwallowsBefore (fun s => pointRe.finditer s ≠ []) boxes := by
  constructor
  · rintro ⟨opener, ho, closer, hc, a, b, c, d, hwhole, hwhole', hle, hblock | hblock⟩
    · exact .inl ⟨opener, ho, closer, hc, a, b, c, d, hwhole, hwhole', hle, hblock⟩
    · exact .inr ⟨opener, ho, closer, hc, a, b, c, d, hwhole, hwhole', hle, hblock⟩
  · rintro (⟨opener, ho, closer, hc, a, b, c, d, hwhole, hwhole', hle, hblock⟩ |
      ⟨opener, ho, closer, hc, a, b, c, d, hwhole, hwhole', hle, hblock⟩)
    · exact ⟨opener, ho, closer, hc, a, b, c, d, hwhole, hwhole', hle, .inl hblock⟩
    · exact ⟨opener, ho, closer, hc, a, b, c, d, hwhole, hwhole', hle, .inr hblock⟩

theorem mem_labelledBlocks {n : Nat} {answer : Str} {p : Match Char × Match Char} :
    p ∈ labelledBlocks n answer ↔
      p.1 ∈ refRunRe.finditer answer ∧ runLabel p.1 ≠ [] ∧ p.2 ∈ blocksInRun n p.1 := by
  obtain ⟨m, b⟩ := p
  rw [labelledBlocks, List.mem_flatMap]
  constructor
  · rintro ⟨m', hm', hb⟩
    split at hb
    · exact absurd hb (by simp)
    · rename_i hl
      obtain ⟨b', hb', heq⟩ := List.mem_map.mp hb
      cases heq
      exact ⟨hm', hl, hb'⟩
  · rintro ⟨hm, hl, hb⟩
    exact ⟨m, hm, by rw [if_neg hl]; exact List.mem_map_of_mem hb⟩

/-- **Label attribution.** The items the parsers label from a run are one per labelled block,
    under the run's label; and every one of them is labelled by the last tag in front of it
    exactly when the closed blocks of no labelled run swallow a tag. -/
theorem label_attribution (answer : Str) (w h : Nat) (pl : Option Str) :
    (parseBoxes answer w h).1
      = ((labelledBlocks 4 answer).map fun p => boxOf (runLabel p.1) w h p.2) ∧
    (∃ bare, (parsePoints answer w h pl).1
      = ((labelledBlocks 2 answer).map fun p => pointOf (runLabel p.1) w h p.2) ++ bare) ∧
    ((∀ p ∈ labelledBlocks 4 answer ++ labelledBlocks 2 answer, LabelledByLastTag answer p) ↔
      ∀ m ∈ refRunRe.finditer answer, runLabel m ≠ [] → ¬ Swallows (m.group boxesGroup)) := by
  refine ⟨by rw [parseBoxes_eq], ?_, ?_⟩
  · rw [parsePoints_eq]
    cases truthy pl with
    | none => exact ⟨[], by simp⟩
    | some l => exact ⟨_, rfl⟩
  have bad : ∀ n p, p ∈ labelledBlocks n answer → ¬ LabelledByLastTag answer p →
      ∃ m ∈ refRunRe.finditer answer, runLabel m ≠ [] ∧
        SwallowsBefore (fun s => (coordBlockRe n).finditer s ≠ []) (m.group boxesGroup) := by
    rintro n p hp hno
    obtain ⟨hm, hl, hb⟩ := mem_labelledBlocks.mp hp
    exact ⟨p.1, hm, hl, (run_labelled_iff hm n).mp ⟨_, hb, hno⟩⟩
  have good : ∀ n m, m ∈ refRunRe.finditer answer → runLabel m ≠ [] →
      SwallowsBefore (fun s => (coordBlockRe n).finditer s ≠ []) (m.group boxesGroup) →
      ∃ p ∈ labelledBlocks n answer, ¬ LabelledByLastTag answer p := by
    rintro n m hm hl hsw
    obtain ⟨b, hb, hno⟩ := (run_labelled_iff hm n).mpr hsw
    exact ⟨(m, b), mem_labelledBlocks.mpr ⟨hm, hl, hb⟩, hno⟩
  constructor
  · intro hall m hm hl hsw
    rcases swallows_iff.mp hsw with hsw | hsw
    · obtain ⟨p, hp, hno⟩ := good 4 m hm hl hsw
      exact hno (hall p (List.mem_append_left _ hp))
    · obtain ⟨p, hp, hno⟩ := good 2 m hm hl hsw
      exact hno (hall p (List.mem_append_right _ hp))
  · intro hcond p hp
    by_contra hno
    rcases List.mem_append.mp hp with hp | hp
    · obtain ⟨m, hm, hl, hsw⟩ := bad 4 p hp hno
      exact hcond m hm hl (swallows_iff.mpr (.inl hsw))
    · obtain ⟨m, hm, hl, hsw⟩ := bad 2 p hp hno
      exact hcond m hm hl (swallows_iff.mpr (.inr hsw))

/-- A point block cut short before its `</box>`, then the next category. -/
def unclosedAnswer : Str :=
  "<ref>cat</ref><box><1><2><ref>dog</ref><box><1><2><3><4></box>".toList

/-- The dog's box is returned as a cat. -/
theorem unclosed_block_takes_next_category :
    ((parseBoxes unclosedAnswer 640 480).1.map fun d => (d.label, d.bbox_norm))
      = [("cat".toList, [1, 2, 3, 4])] ∧
    ¬ ∀ p ∈ labelledBlocks 4 unclosedAnswer ++ labelledBlocks 2 unclosedAnswer,
      LabelledByLastTag unclosedAnswer p := by
  have hbetween : (labelledBlocks 4 unclosedAnswer).map (fun p => between unclosedAnswer p)
      = ["<box><1><2>".toList ++ refTag "dog".toList] := by decide +kernel
  refine ⟨by rw [parseBoxes_eq]; decide +kernel, fun hall => ?_⟩
  obtain ⟨p, hp, hb⟩ := List.mem_map.mp (by rw [hbetween]; exact List.mem_cons_self)
  refine hall p (List.mem_append_left _ hp) ⟨"dog".toList, ?_⟩
  rw [hb]
  exact (List.suffix_append _ _).isInfix

end LocateAnything.Worker
