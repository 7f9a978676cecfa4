import LocateAnything.Worker.Trained

/-!
# Cutting an answer

Generation ends at `<|im_end|>` or when the tokens run out, and then the answer ends wherever
it was. What is left of an answer in the trained format after its first `k` characters is the
blocks whose `</box>` lies within the cut (`groupEnds`, `blockEnds`), and a rest that holds no
`</box>` (`take_groupsText`, `take_blocksText`). With `Worker/Trained.lean` this settles what
the parsers return on every prefix.

A cut does not heed tokens either: it may fall inside a tag, a label, a number. So the rest is
any proper prefix of a tag and a block, and the one thing to show of it is that no `</box>`
has got into it. This holds because `</box>` cannot start in a tag, in a coordinate or in a
`<box>` (`Clear`), so its only place is the end of the block, which the cut has taken away.

The blocks are counted twice, forwards by what is still left of the cut (`cutBlocks`, which
the induction on the answer wants) and by their places in the whole answer (`blockEnds`, which
the statement wants: what is returned are the blocks that *end* within the cut).
`filter_groupEnds` says that both are the same.
-/

set_option autoImplicit false

namespace LocateAnything.Worker

open LocateAnything.Regex LocateAnything.Scan LocateAnything.Words Py

variable {n : Nat}

/-- The blocks of a text that starts at `pos`, each with the position behind its `</box>`. -/
def blockEnds : (pos : Nat) → List (TrainedBlock n) → List (TrainedBlock n × Nat)
  | _, [] => []
  | pos, b :: bs => (b, pos + b.text.length) :: blockEnds (pos + b.text.length) bs

/-- The items of groups whose text starts at `pos`, each with the position behind its
    `</box>`. -/
def groupEnds : (pos : Nat) → List Group → List ((Label × TrainedBlock 4) × Nat)
  | _, [] => []
  | pos, g :: gs =>
    ((blockEnds (pos + (refTag g.label.text).length) g.blocks).map fun x => ((g.label, x.1), x.2))
      ++ groupEnds (pos + g.text.length) gs

/-- The blocks that are complete in the first `k` characters. -/
def cutBlocks : (k : Nat) → List (TrainedBlock n) → List (TrainedBlock n)
  | _, [] => []
  | k, b :: bs => if b.text.length ≤ k then b :: cutBlocks (k - b.text.length) bs else []

/-- The groups that have a complete block in the first `k` characters, with their complete
    blocks. A group whose first block is cut is gone altogether, tag and all. -/
def cutGroups : (k : Nat) → List Group → List Group
  | _, [] => []
  | k, g :: gs =>
    if g.text.length ≤ k then g :: cutGroups (k - g.text.length) gs
    else
      match cutBlocks (k - (refTag g.label.text).length) g.blocks with
      | [] => []
      | b :: bs => [⟨g.label, b :: bs, by simp⟩]

/-! ## Where a foreign word can start

`</box>` starts in no tag, no coordinate and no `<box>`; `<|im_end|>` in no complete block
either. Both follow from what stands behind each `<`. -/

section Foreign
variable {c : Char} {w : Str}

theorem clear_refTag (hr : c ≠ 'r') (hclose : ∀ u, ¬ c :: w <+: '/' :: 'r' :: u)
    (label : Label) : Clear ('<' :: c :: w) (refTag label.text) := by
  have hopen : Clear ('<' :: c :: w) (refOpen ++ label.text) := by
    refine @clear_chunk _ _ _ (['r', 'e', 'f', '>'] ++ label.text) ?_ fun u => ?_
    · rw [List.mem_append, not_or]; exact ⟨by decide, label.no_lt⟩
    · simp [hr]
  have hclose' : Clear ('<' :: c :: w) refClose := clear_chunk (by decide) fun u => hclose _
  have := hopen.append hclose'
  rwa [List.append_assoc] at this

theorem clear_coordsText (hd : isDecimal c = false) (ds : List Numeral) :
    Clear ('<' :: c :: w) (coordsText ds) := by
  refine Clear.flatMap fun d _ => clear_chunk ?_ fun u => ?_
  · rw [List.mem_append, not_or]; exact ⟨notMem_numeral (by decide) d, by decide⟩
  · obtain ⟨e, t, het⟩ := List.exists_cons_of_ne_nil d.ne_nil
    have hne : e ≠ c := isDecimal_ne (d.decimal e (by rw [het]; simp)) hd
    rw [het]
    simp only [List.cons_append, List.cons_prefix_cons, not_and]
    exact fun h => absurd h.symm hne

/-- Only the `</box>` of a trained block can hold the start of such a word. -/
theorem TrainedBlock.text_eq (hb : c ≠ 'b') (hd : isDecimal c = false) (b : TrainedBlock n) :
    ∃ z, b.text = z ++ boxClose ∧ Clear ('<' :: c :: w) z := by
  cases b with
  | coords x =>
    have hopen : Clear ('<' :: c :: w) boxOpen := clear_chunk (by decide) fun u => by simp [hb]
    exact ⟨boxOpen ++ coordsText x.digits, by simp [TrainedBlock.text, coordBlock],
      hopen.append (clear_coordsText hd x.digits)⟩
  | none =>
    exact ⟨boxOpen ++ ['N', 'o', 'n', 'e'], rfl,
      @clear_chunk _ _ _ ['b', 'o', 'x', '>', 'N', 'o', 'n', 'e'] (by decide)
        fun u => by simp [hb]⟩

end Foreign

theorem clear_imEnd_blocksText (bs : List (TrainedBlock n)) : Clear imEnd (blocksText bs) := by
  refine Clear.flatMap fun b _ => ?_
  obtain ⟨z, hz, hclear⟩ := b.text_eq (c := '|') (by decide) (by decide)
  rw [hz]
  exact hclear.append (clear_chunk (by decide) fun u => by simp)

theorem clear_imEnd_groupsText (gs : List Group) : Clear imEnd (groupsText gs) :=
  Clear.flatMap fun g _ =>
    (clear_refTag (by decide) (fun u => by simp) g.label).append (clear_imEnd_blocksText g.blocks)

/-- An answer is truncated exactly when something of it is missing: the end marker is the last
    thing in it, and nothing before it can be taken for one. -/
theorem modelOutputTruncated_take {s : Str} (h : Clear imEnd s) (k : Nat) :
    modelOutputTruncated ((s ++ imEnd).take k) = decide (k < (s ++ imEnd).length) := by
  rw [modelOutputTruncated]
  by_cases hk : k < (s ++ imEnd).length
  · have hno : ¬ imEnd <:+: (s ++ imEnd).take k :=
      h.not_infix_of_cut (c := (s ++ imEnd).drop k) (List.take_append_drop _ _) (by
        rw [← List.length_pos_iff, List.length_drop]; omega)
    have hsuf : imEnd.isSuffixOf ((s ++ imEnd).take k) = false := by
      rw [Bool.eq_false_iff]
      intro hs
      exact hno (List.isSuffixOf_iff_suffix.mp hs).isInfix
    rw [hsuf, decide_eq_true hk, Bool.not_false]
  · have hsuf : imEnd.isSuffixOf (s ++ imEnd) = true :=
      List.isSuffixOf_iff_suffix.mpr (List.suffix_append _ _)
    rw [List.take_of_length_le (by omega), hsuf, decide_eq_false hk, Bool.not_true]

theorem TrainedBlock.length_text_pos (b : TrainedBlock n) : 0 < b.text.length := by
  rw [← b.text_block, Block.length_text]; omega

/-- A proper prefix of a tag and a block holds no `</box>`. -/
theorem no_close_of_take {pre r : Str} (hpre : Clear boxClose pre) (b : TrainedBlock n) {k : Nat}
    (hk : k < pre.length + b.text.length) :
    ¬ boxClose <:+: (pre ++ (b.text ++ r)).take k := by
  obtain ⟨z, hz, hclear⟩ := b.text_eq (c := '/') (by decide) (by decide)
  have htake : (pre ++ (b.text ++ r)).take k = (pre ++ b.text).take k := by
    rw [← List.append_assoc, List.take_append_of_le_length (by rw [List.length_append]; omega)]
  rw [htake]
  refine (hpre.append hclear).not_infix_of_cut (c := (pre ++ b.text).drop k) ?_ ?_
  · rw [List.take_append_drop, hz, List.append_assoc]
  · rw [← List.length_pos_iff, List.length_drop, List.length_append]; omega

theorem no_close_of_slash {e : Str} (he : '/' ∉ e) (k : Nat) : ¬ boxClose <:+: e.take k :=
  fun h => he (List.take_subset k e (h.subset (by simp [boxClose])))

/-! ## What a cut leaves -/

theorem cutBlocks_zero {bs : List (TrainedBlock n)} (hbs : bs ≠ []) : cutBlocks 0 bs = [] := by
  obtain ⟨b, bs, rfl⟩ := List.exists_cons_of_ne_nil hbs
  have := b.length_text_pos
  rw [cutBlocks, if_neg (by omega)]

/-- By induction on the blocks: the first is complete or the cut falls in it. -/
theorem take_blocksText {e : Str} (he : '/' ∉ e) (bs : List (TrainedBlock n)) : ∀ k : Nat,
    ∃ t, (blocksText bs ++ e).take k = blocksText (cutBlocks k bs) ++ t ∧
      ¬ boxClose <:+: t := by
  induction bs with
  | nil => exact fun k => ⟨_, rfl, no_close_of_slash he k⟩
  | cons b bs ih =>
    intro k
    by_cases hk : b.text.length ≤ k
    · obtain ⟨t, ht, hno⟩ := ih (k - b.text.length)
      refine ⟨t, ?_, hno⟩
      rw [blocksText_cons, List.append_assoc, List.take_append, List.take_of_length_le hk, ht,
        cutBlocks, if_pos hk, blocksText_cons, List.append_assoc]
    · refine ⟨_, by rw [cutBlocks, if_neg hk]; rfl, ?_⟩
      rw [blocksText_cons, List.append_assoc]
      exact no_close_of_take (Clear.nil _) b (by simpa using hk)

/-- By induction on the groups. Where the cut falls in a group, its tag is complete or there
    is no block. -/
theorem take_groupsText {e : Str} (he : '/' ∉ e) (gs : List Group) : ∀ k : Nat,
    ∃ t, (groupsText gs ++ e).take k = groupsText (cutGroups k gs) ++ t ∧
      ¬ boxClose <:+: t := by
  induction gs with
  | nil => exact fun k => ⟨_, rfl, no_close_of_slash he k⟩
  | cons g gs ih =>
    intro k
    by_cases hk : g.text.length ≤ k
    · obtain ⟨t, ht, hno⟩ := ih (k - g.text.length)
      refine ⟨t, ?_, hno⟩
      rw [groupsText_cons, List.append_assoc, List.take_append, List.take_of_length_le hk, ht,
        cutGroups, if_pos hk, groupsText_cons, List.append_assoc]
    · have hcut : (groupsText (g :: gs) ++ e).take k = g.text.take k := by
        rw [groupsText_cons, List.append_assoc, List.take_append_of_le_length (by omega)]
      rw [hcut, cutGroups, if_neg hk]
      cases hb : cutBlocks (k - (refTag g.label.text).length) g.blocks with
      | nil =>
        -- Not even the first block is complete.
        refine ⟨_, rfl, ?_⟩
        obtain ⟨b, bs, hbs⟩ := List.exists_cons_of_ne_nil g.ne_nil
        rw [hbs, cutBlocks] at hb
        have hlt : ¬ b.text.length ≤ k - (refTag g.label.text).length := by
          intro hle
          rw [if_pos hle] at hb
          exact absurd hb (by simp)
        rw [Group.text, hbs, blocksText_cons]
        have := b.length_text_pos
        exact no_close_of_take (clear_refTag (by decide) (fun u => by simp) g.label) b (by omega)
      | cons b bs =>
        have hle : (refTag g.label.text).length ≤ k := by
          by_contra hlt
          rw [Nat.sub_eq_zero_of_le (by omega), cutBlocks_zero g.ne_nil] at hb
          exact absurd hb (by simp)
        obtain ⟨t, ht, hno⟩ := take_blocksText (e := []) (by simp) g.blocks
          (k - (refTag g.label.text).length)
        rw [List.append_nil, hb] at ht
        refine ⟨t, ?_, hno⟩
        rw [Group.text, List.take_append, List.take_of_length_le hle, ht, groupsText_cons,
          groupsText_nil, Group.text, List.append_nil, List.append_assoc]

/-! ## The complete items are those that end within the cut -/

theorem lt_blockEnds (bs : List (TrainedBlock n)) : ∀ {pos : Nat} {x : TrainedBlock n × Nat},
    x ∈ blockEnds pos bs → pos < x.2 := by
  induction bs with
  | nil => intro pos x h; exact absurd h (by simp [blockEnds])
  | cons b bs ih =>
    intro pos x h
    have := b.length_text_pos
    rcases List.mem_cons.mp h with rfl | h
    · simp only; omega
    · have := ih h; omega

theorem blockEnds_le (bs : List (TrainedBlock n)) : ∀ {pos : Nat} {x : TrainedBlock n × Nat},
    x ∈ blockEnds pos bs → x.2 ≤ pos + (blocksText bs).length := by
  induction bs with
  | nil => intro pos x h; exact absurd h (by simp [blockEnds])
  | cons b bs ih =>
    intro pos x h
    rw [blocksText_cons, List.length_append]
    rcases List.mem_cons.mp h with rfl | h
    · simp only; omega
    · have := ih h; omega

theorem lt_groupEnds (gs : List Group) : ∀ {pos : Nat} {x : (Label × TrainedBlock 4) × Nat},
    x ∈ groupEnds pos gs → pos < x.2 := by
  induction gs with
  | nil => intro pos x h; exact absurd h (by simp [groupEnds])
  | cons g gs ih =>
    intro pos x h
    rcases List.mem_append.mp h with h | h
    · obtain ⟨y, hy, rfl⟩ := List.mem_map.mp h
      have := lt_blockEnds g.blocks hy
      simp only; omega
    · have := ih h; omega

theorem filter_blockEnds (bs : List (TrainedBlock n)) : ∀ pos k : Nat,
    ((blockEnds pos bs).filter fun x => x.2 ≤ pos + k).map Prod.fst = cutBlocks k bs := by
  induction bs with
  | nil => intro pos k; rfl
  | cons b bs ih =>
    intro pos k
    rw [blockEnds, cutBlocks]
    split
    · rename_i hk
      rw [List.filter_cons_of_pos (by simpa using hk), List.map_cons,
        show pos + k = pos + b.text.length + (k - b.text.length) by omega, ih]
    · rename_i hk
      rw [List.filter_cons_of_neg (by simpa using hk), List.map_eq_nil_iff,
        List.filter_eq_nil_iff]
      intro x hx
      have := lt_blockEnds bs hx
      simp only [decide_eq_true_eq]
      omega

theorem map_fst_blockEnds (bs : List (TrainedBlock n)) :
    ∀ pos : Nat, (blockEnds pos bs).map Prod.fst = bs := by
  induction bs with
  | nil => exact fun _ => rfl
  | cons b bs ih =>
    intro pos
    rw [blockEnds, List.map_cons, ih]

/-- A cut behind the last block leaves them all, … -/
theorem filter_blockEnds_of_le {bs : List (TrainedBlock n)} {pos p : Nat}
    (h : pos + (blocksText bs).length ≤ p) :
    ((blockEnds pos bs).filter fun x => x.2 ≤ p).map Prod.fst = bs := by
  have hall : (blockEnds pos bs).filter (fun x => x.2 ≤ p) = blockEnds pos bs := by
    rw [List.filter_eq_self]
    intro x hx
    have := blockEnds_le bs hx
    simp only [decide_eq_true_eq]
    omega
  rw [hall, map_fst_blockEnds]

/-- … one in front of them none. -/
theorem filter_blockEnds_of_ge {bs : List (TrainedBlock n)} {pos p : Nat} (h : p ≤ pos) :
    ((blockEnds pos bs).filter fun x => x.2 ≤ p).map Prod.fst = [] := by
  rw [List.map_eq_nil_iff, List.filter_eq_nil_iff]
  intro x hx
  have := lt_blockEnds bs hx
  simp only [decide_eq_true_eq]
  omega

theorem filter_groupEnds_of_ge {gs : List Group} {pos p : Nat} (h : p ≤ pos) :
    (groupEnds pos gs).filter (fun x => x.2 ≤ p) = [] := by
  rw [List.filter_eq_nil_iff]
  intro x hx
  have := lt_groupEnds gs hx
  simp only [decide_eq_true_eq]
  omega

theorem filter_blockEnds_behind_tag (g : Group) (pos k : Nat) :
    ((blockEnds (pos + (refTag g.label.text).length) g.blocks).filter
        fun x => x.2 ≤ pos + k).map Prod.fst
      = cutBlocks (k - (refTag g.label.text).length) g.blocks := by
  by_cases hle : (refTag g.label.text).length ≤ k
  · rw [← filter_blockEnds g.blocks (pos + (refTag g.label.text).length)]
    rw [show pos + (refTag g.label.text).length + (k - (refTag g.label.text).length)
      = pos + k by omega]
  · -- Neither side has anything: the cut lies in the tag.
    rw [Nat.sub_eq_zero_of_le (by omega), cutBlocks_zero g.ne_nil]
    apply filter_blockEnds_of_ge
    omega

/-- The first group and the others, whichever the cut falls in. -/
theorem map_fst_filter_groupEnds_cons (g : Group) (gs : List Group) (pos p : Nat) :
    ((groupEnds pos (g :: gs)).filter fun x => x.2 ≤ p).map Prod.fst
      = ((((blockEnds (pos + (refTag g.label.text).length) g.blocks).filter
            fun x => x.2 ≤ p).map Prod.fst).map fun b => (g.label, b))
        ++ ((groupEnds (pos + g.text.length) gs).filter fun x => x.2 ≤ p).map Prod.fst := by
  rw [groupEnds, List.filter_append, List.map_append, List.filter_map, List.map_map, List.map_map]
  rfl

/-- The items that end within the cut are those of the cut groups. -/
theorem filter_groupEnds (gs : List Group) : ∀ pos k : Nat,
    ((groupEnds pos gs).filter fun x => x.2 ≤ pos + k).map Prod.fst
      = items (cutGroups k gs) := by
  induction gs with
  | nil => intro pos k; rfl
  | cons g gs ih =>
    intro pos k
    have hlen : g.text.length = (refTag g.label.text).length + (blocksText g.blocks).length := by
      rw [Group.text, List.length_append]
    rw [map_fst_filter_groupEnds_cons, cutGroups]
    split
    · -- the whole group lies within the cut
      rename_i hk
      rw [filter_blockEnds_of_le (by omega), items_cons, Group.items,
        show pos + k = pos + g.text.length + (k - g.text.length) by omega, ih]
    · rename_i hk
      rw [filter_blockEnds_behind_tag, filter_groupEnds_of_ge (by omega), List.map_nil,
        List.append_nil]
      cases cutBlocks (k - (refTag g.label.text).length) g.blocks with
      | nil => rfl
      | cons b bs => simp [items, Group.items]

/-- What the parsers return on a prefix of groups, … -/
theorem parseAnswer_take_groupsText (gs : List Group) (k w h : Nat) (pl : Option Str) :
    parseAnswer ((groupsText gs ++ imEnd).take k) w h pl
      = ⟨detections w h (((groupEnds 0 gs).filter fun x => x.2 ≤ k).map Prod.fst), 0, [], 0, 0⟩ := by
  obtain ⟨t, ht, hno⟩ := take_groupsText (e := imEnd) (by decide) gs k
  have hfilter := filter_groupEnds gs 0 k
  rw [Nat.zero_add] at hfilter
  rw [ht, parseAnswer_groups _ hno, ← hfilter]

/-- … and of bare blocks. -/
theorem parseAnswer_take_blocksText (bs : List (TrainedBlock 2)) (k w h : Nat) {label : Str}
    (hl : label ≠ []) :
    parseAnswer ((blocksText bs ++ imEnd).take k) w h (some label)
      = ⟨[], 0, points label w h (((blockEnds 0 bs).filter fun x => x.2 ≤ k).map Prod.fst),
          0, 0⟩ := by
  obtain ⟨t, ht, hno⟩ := take_blocksText (e := imEnd) (by decide) bs k
  have hr : 'r' ∉ t := by
    have hcut : 'r' ∉ (blocksText bs ++ imEnd).take k := by
      intro hm
      rcases List.mem_append.mp (List.take_subset k _ hm) with hm | hm
      · exact r_notMem_blocksText bs hm
      · exact absurd hm (by decide)
    rw [ht] at hcut
    exact fun hm => hcut (List.mem_append_right _ hm)
  have hfilter := filter_blockEnds bs 0 k
  rw [Nat.zero_add] at hfilter
  rw [ht, parseAnswer_blocks _ hno hr hl, ← hfilter]

/-- **A cut loses exactly what it cuts off.** On every prefix of an answer in the trained format
    the parsers return the boxes (the points) whose `</box>` lies within the prefix, nothing of
    the other shape, and count nothing; the result is a success if there is one and an abstention
    otherwise, with nothing dropped, and it says that the answer is truncated unless it is
    whole. -/
theorem truncation_safe :
    (∀ (gs : List Group) (k : Nat) (f : Frame) (task : TemplateKind) (pl : Option Str),
      expectedShape task = .box →
      let cut := (groupsText gs ++ imEnd).take k
      let complete := detections f.width f.height
        (((groupEnds 0 gs).filter fun x => x.2 ≤ k).map Prod.fst)
      parseAnswer cut f.width f.height pl = ⟨complete, 0, [], 0, 0⟩ ∧
      (mapAnswer f task pl cut).kind = (if complete = [] then .abstained else .boxes) ∧
      (mapAnswer f task pl cut).boxes = complete ∧
      (mapAnswer f task pl cut).points = [] ∧
      (mapAnswer f task pl cut).deviations_dropped = 0 ∧
      (mapAnswer f task pl cut).model_output_truncated
        = decide (k < (groupsText gs ++ imEnd).length)) ∧
    (∀ (bs : List (TrainedBlock 2)) (k : Nat) (f : Frame) (label : Str), label ≠ [] →
      let cut := (blocksText bs ++ imEnd).take k
      let complete := points label f.width f.height
        (((blockEnds 0 bs).filter fun x => x.2 ≤ k).map Prod.fst)
      parseAnswer cut f.width f.height (some label) = ⟨[], 0, complete, 0, 0⟩ ∧
      (mapAnswer f .point (some label) cut).kind
        = (if complete = [] then .abstained else .points) ∧
      (mapAnswer f .point (some label) cut).boxes = [] ∧
      (mapAnswer f .point (some label) cut).points = complete ∧
      (mapAnswer f .point (some label) cut).deviations_dropped = 0 ∧
      (mapAnswer f .point (some label) cut).model_output_truncated
        = decide (k < (blocksText bs ++ imEnd).length)) := by
  constructor
  · intro gs k f task pl hs cut complete
    have hparse : parseAnswer cut f.width f.height pl = ⟨complete, 0, [], 0, 0⟩ :=
      parseAnswer_take_groupsText gs k f.width f.height pl
    obtain ⟨hkind, hboxes, hpoints, hdropped⟩ := mapAnswer_boxes f task pl cut hs hparse
    refine ⟨hparse, hkind, hboxes, hpoints, hdropped, ?_⟩
    rw [mapAnswer_truncated]
    exact modelOutputTruncated_take (clear_imEnd_groupsText gs) k
  · intro bs k f label hl cut complete
    have hparse : parseAnswer cut f.width f.height (some label) = ⟨[], 0, complete, 0, 0⟩ :=
      parseAnswer_take_blocksText bs k f.width f.height hl
    obtain ⟨hkind, hboxes, hpoints, hdropped⟩ := mapAnswer_points f .point _ cut rfl hparse
    refine ⟨hparse, hkind, hboxes, hpoints, hdropped, ?_⟩
    rw [mapAnswer_truncated]
    exact modelOutputTruncated_take (clear_imEnd_blocksText bs) k

section Example

/-- `<ref>cat</ref><box><1><2><3><4></box><box>None</box>` -/
def catGroup : Group where
  label := ⟨"cat".toList, by decide, by decide, by decide⟩
  blocks := [.coords ⟨[.ofNat 1, .ofNat 2, .ofNat 3, .ofNat 4], rfl, by decide⟩, .none]
  ne_nil := by decide

/-- `<box><7><8></box>` -/
def sevenEight : TrainedBlock 2 := .coords ⟨[.ofNat 7, .ofNat 8], rfl, by decide⟩

def vga : Frame := ⟨640, 480, ⟨644, 504, 414, 1⟩, 12⟩

/-- The cat's answer, cut in the middle of its `None` block, and a point cut in its `</box>`. -/
theorem truncation_safe_cat :
    ((mapAnswer vga .detection none ((groupsText [catGroup] ++ imEnd).take 40)).kind = .boxes ∧
      (mapAnswer vga .detection none
        ((groupsText [catGroup] ++ imEnd).take 40)).model_output_truncated = true) ∧
    (mapAnswer vga .point (some "cat".toList) ((blocksText [sevenEight] ++ imEnd).take 12)).kind
      = .abstained := by
  have hbox := truncation_safe.1 [catGroup] 40 vga .detection none rfl
  have hpoint := truncation_safe.2 [sevenEight] 12 vga "cat".toList (by decide)
  refine ⟨⟨hbox.2.1.trans (if_neg ?_), hbox.2.2.2.2.2.trans (by decide)⟩,
    hpoint.2.1.trans (if_pos ?_)⟩
  · exact List.cons_ne_nil _ _
  · rfl

end Example

end LocateAnything.Worker
