import LocateAnything.Worker.Patterns

/-!
# How the expressions cut an answer

The three scans of an answer (for ref-runs, for closed blocks, for numeric blocks) are made
independently, and then reconciled by comparing the spans of what they have found. That works
only if the spans nest. This file shows that they do: a numeric block never straddles the
border of a run (`cut_before_tag`, `cut_after_close`, `quiet_refTag`), so its scan splits
along the runs (`filter_overlapping_eq`) and along the closed blocks
(`length_finditer_coordBlockRe`).

What makes the cuts hold is the spelling of the tags: behind every `<` of a numeric block
except its first there is a digit or the `/` of `</box>` (`coordBlock_inner`). A block that
reached into a tag from the left would have to read the tag's `<` as one of its own, and
behind that stands a letter. One that reached over a closing tag would have to hold its `/`,
and the only one it has is in its own `</box>`, with which it ends.

The converse does not hold, and is not needed: a closed block may contain a run, or half of
one, because `.*?` takes anything. So the closed blocks are only ever counted, never placed.
-/

set_option autoImplicit false

namespace LocateAnything.Worker

open LocateAnything.Regex LocateAnything.Scan LocateAnything.Words Py

/-! ## Every expression takes something -/

theorem length_coordBlock_pos (ds : List Numeral) : 1 ≤ (coordBlock ds).length := by
  simp [coordBlock, boxOpen]

/-- A scan that takes nothing would not move on; the library asks this of every expression. -/
theorem proper_coordBlockRe (n : Nat) : Proper (coordBlockRe n).read := by
  intro s gs len h
  obtain ⟨ds, -, t, rfl, -, rfl⟩ := read_coordBlockRe.mp h
  rw [List.length_append]
  exact ⟨length_coordBlock_pos ds, Nat.le_add_right _ _⟩

theorem proper_anyBoxRe : Proper anyBoxRe.read := by
  intro s gs len h
  obtain ⟨b, t, rfl, -, rfl⟩ := read_anyBoxRe.mp h
  rw [List.length_append, b.length_text]
  omega

theorem proper_refRunRe : Proper refRunRe.read := by
  intro s gs len h
  obtain ⟨r, t, rfl, -, -, rfl⟩ := read_refRunRe.mp h
  rw [List.length_append, RefRun.text, List.length_append, length_refTag]
  omega

/-! ## The inside of a numeric block -/

theorem notMem_numeral {c : Char} (hc : isDecimal c = false) (d : Numeral) : c ∉ d.text :=
  fun hm => absurd (d.decimal c hm) (by simp [hc])

theorem coordsText_inner (ds : List Numeral) : ∀ {a b t : Str},
    coordsText ds ++ (boxClose ++ t) = a ++ '<' :: b → t = [] →
    ∃ c b', b = c :: b' ∧ (isDecimal c = true ∨ c = '/') := by
  induction ds with
  | nil =>
    rintro a b t h rfl
    rw [coordsText_nil, List.nil_append, List.append_nil] at h
    cases a with
    | nil =>
      simp only [boxClose, List.nil_append, List.cons.injEq] at h
      exact ⟨'/', _, h.2.symm, Or.inr rfl⟩
    | cons e a =>
      simp only [boxClose, List.cons_append, List.cons.injEq] at h
      have : '<' ∈ ['/', 'b', 'o', 'x', '>'] := by rw [h.2]; simp
      exact absurd this (by decide)
  | cons d ds ih =>
    intro a b t h ht
    rw [coordsText_cons] at h
    cases a with
    | nil =>
      obtain ⟨c, r, hcr⟩ := List.exists_cons_of_ne_nil d.ne_nil
      simp only [List.cons_append, List.nil_append, List.cons.injEq, true_and, hcr] at h
      exact ⟨c, _, h.symm, Or.inl (d.decimal c (by rw [hcr]; simp))⟩
    | cons e a =>
      simp only [List.cons_append, List.cons.injEq, List.append_assoc] at h
      have hne : '<' ∉ d.text ++ ['>'] := by
        rw [List.mem_append, not_or]
        exact ⟨notMem_numeral (by decide) d, by decide⟩
      have h' : a ++ '<' :: b = (d.text ++ ['>']) ++ (coordsText ds ++ (boxClose ++ t)) := by
        rw [← h.2]; simp
      obtain ⟨a', -, hq⟩ := split_of_notMem _ hne h'
      exact ih hq ht

/-- **Behind every inner `<` of a numeric block there is a digit or a `/`.** -/
theorem coordBlock_inner {ds : List Numeral} {a b : Str} (ha : a ≠ [])
    (h : coordBlock ds = a ++ '<' :: b) :
    ∃ c b', b = c :: b' ∧ (isDecimal c = true ∨ c = '/') := by
  obtain ⟨e, a, rfl⟩ := List.exists_cons_of_ne_nil ha
  simp only [coordBlock, boxOpen, List.cons_append, List.nil_append, List.cons.injEq] at h
  have h' : a ++ '<' :: b = ['b', 'o', 'x', '>'] ++ (coordsText ds ++ (boxClose ++ [])) := by
    rw [← h.2]; simp
  obtain ⟨a', -, hq⟩ := split_of_notMem _ (by decide) h'
  exact coordsText_inner ds hq rfl

theorem slash_notMem_coordsText (ds : List Numeral) : '/' ∉ coordsText ds := by
  induction ds with
  | nil => simp
  | cons d ds ih =>
    rw [coordsText_cons]
    simp only [List.mem_cons, List.mem_append, not_or]
    exact ⟨by decide, notMem_numeral (by decide) d, by decide, ih⟩

/-- Coordinates can be read off their text, up to the closing tag: no coordinate holds a `>`.
    -/
theorem coordsText_inj : ∀ {ds es : List Numeral} {t t' : Str},
    coordsText ds ++ (boxClose ++ t) = coordsText es ++ (boxClose ++ t') → ds = es ∧ t = t' := by
  have clash : ∀ (d : Numeral) (ds : List Numeral) (t t' : Str),
      coordsText (d :: ds) ++ t ≠ boxClose ++ t' := by
    intro d ds t t' h
    obtain ⟨c, r, hcr⟩ := List.exists_cons_of_ne_nil d.ne_nil
    simp only [coordsText_cons, boxClose, hcr, List.cons_append, List.cons.injEq, true_and] at h
    exact isDecimal_ne (d.decimal c (by rw [hcr]; simp)) (by decide) h.1
  intro ds
  induction ds with
  | nil =>
    intro es t t' h
    cases es with
    | nil => exact ⟨rfl, by simpa using h⟩
    | cons e es => exact absurd h.symm (clash e es _ _)
  | cons d ds ih =>
    intro es t t' h
    cases es with
    | nil => exact absurd h (clash d ds _ _)
    | cons e es =>
      simp only [coordsText_cons, List.cons_append, List.append_assoc, List.cons.injEq,
        true_and] at h
      obtain ⟨hd, hr⟩ := append_cons_inj (notMem_numeral (by decide) d)
        (notMem_numeral (by decide) e) h
      obtain ⟨rfl, rfl⟩ := ih hr
      exact ⟨by rw [Numeral.ext hd], rfl⟩

/-! ## Borders no numeric block crosses -/

variable {n : Nat}

theorem read_coordBlockRe_append {s v : Str} {r : List (Capture Char) × Nat}
    (h : (coordBlockRe n).read s = some r) : (coordBlockRe n).read (s ++ v) = some r := by
  obtain ⟨gs, len⟩ := r
  obtain ⟨ds, hds, t, rfl, hgs, hlen⟩ := read_coordBlockRe.mp h
  exact read_coordBlockRe.mpr ⟨ds, hds, t ++ v, List.append_assoc _ _ _, hgs, hlen⟩

/-- It is enough to look at blocks that start in front of the border: each of them must end
    there. -/
theorem cut_of_prefix {u v : Str}
    (h : ∀ x, x ≠ [] → x <:+ u → ∀ ds t, x ++ v = coordBlock ds ++ t → coordBlock ds <+: x) :
    Cut (coordBlockRe n).read u v := by
  intro x hx hs
  cases hr : (coordBlockRe n).read (x ++ v) with
  | none =>
    cases hr' : (coordBlockRe n).read x with
    | none => rfl
    | some r => rw [read_coordBlockRe_append hr'] at hr; exact absurd hr (by simp)
  | some r =>
    obtain ⟨gs, len⟩ := r
    obtain ⟨ds, hds, t, ht, hgs, hlen⟩ := read_coordBlockRe.mp hr
    obtain ⟨y, rfl⟩ := h x hx hs ds t ht
    exact (read_coordBlockRe.mpr ⟨ds, hds, y, rfl, hgs, hlen⟩).symm

theorem cut_before_tag {u v : Str} {c : Char} (hc : isDecimal c = false) (hs : c ≠ '/') :
    Cut (coordBlockRe n).read u ('<' :: c :: v) := by
  refine cut_of_prefix fun x hx _ ds t h => ?_
  rcases List.append_eq_append_iff.mp h with ⟨a, ha, hv⟩ | ⟨a, ha, -⟩
  · cases a with
    | nil => exact ⟨[], by simpa using ha⟩
    | cons e a =>
      simp only [List.cons_append, List.cons.injEq] at hv
      obtain ⟨rfl, hv⟩ := hv
      obtain ⟨c', b', rfl, hc'⟩ := coordBlock_inner hx ha
      simp only [List.cons_append, List.cons.injEq] at hv
      rcases hc' with hc' | rfl
      · exact absurd hc' (by rw [← hv.1, hc]; simp)
      · exact absurd hv.1 hs
  · exact ⟨a, ha.symm⟩

/-- No numeric block reaches over a closing tag `</name>`: the one `/` a numeric block holds is that
    of its own `</box>`, so a block that holds the `/` of the tag ends with the tag, if it can
    (`hname`), and one that starts behind that `/` does not start with a `<`. -/
theorem cut_after_closing {z v name : Str} (hlt : '<' ∉ name)
    (hname : ∀ a, name ++ a = ['b', 'o', 'x', '>'] → a = []) :
    Cut (coordBlockRe n).read (z ++ '<' :: '/' :: name) v := by
  refine cut_of_prefix fun x hx hs ds t h => ?_
  rcases List.append_eq_append_iff.mp h with ⟨a, ha, -⟩ | ⟨a, ha, -⟩
  · obtain ⟨y, hy⟩ := hs
    rcases List.append_eq_append_iff.mp hy with ⟨x', rfl, rfl⟩ | ⟨x', -, hx'⟩
    · -- `x` ends in the whole tag
      have hsplit : (x' ++ ['<']) ++ '/' :: (name ++ a)
          = (boxOpen ++ (coordsText ds ++ ['<'])) ++ '/' :: ['b', 'o', 'x', '>'] := by
        simpa [coordBlock, boxClose] using ha.symm
      have hno : '/' ∉ boxOpen ++ (coordsText ds ++ ['<']) := by
        simp only [List.mem_append, not_or]
        exact ⟨by decide, slash_notMem_coordsText ds, by decide⟩
      obtain ⟨-, ha'⟩ := append_cons_unique hno (by decide) hsplit
      have : a = [] := hname a ha'
      exact ⟨[], by rw [this] at ha; simpa using ha⟩
    · -- `x` is a proper suffix of the tag, or all of it
      cases x' with
      | nil =>
        rw [List.nil_append] at hx'
        subst hx'
        simp [coordBlock, boxOpen] at ha
      | cons e x' =>
        simp only [List.cons_append, List.cons.injEq] at hx'
        obtain ⟨d, x, rfl⟩ := List.exists_cons_of_ne_nil hx
        have hd : '<' ∈ '/' :: name := by
          simp only [coordBlock, boxOpen, List.cons_append, List.cons.injEq] at ha
          rw [hx'.2, ← ha.1]
          simp
        rcases List.mem_cons.mp hd with hd | hd
        · exact absurd hd (by decide)
        · exact absurd hd hlt
  · exact ⟨a, ha.symm⟩

theorem cut_after_close {z v : Str} : Cut (coordBlockRe n).read (z ++ boxClose) v :=
  cut_after_closing (by decide) fun _ h => List.append_cancel_left (h.trans (List.append_nil _).symm)

/-- A block cannot end in `</ref>`, so none reaches over one, whatever stands in front of it. -/
theorem cut_after_refClose {z v : Str} : Cut (coordBlockRe n).read (z ++ refClose) v :=
  cut_after_closing (by decide) fun _ h => absurd h (by simp)

/-- Nothing that starts with `<box>` is read inside a `<ref>` tag. -/
theorem quiet_refTag {f : Recogniser Char (List (Capture Char))} {label v : Str}
    (hf : ∀ s r, f s = some r → boxOpen <+: s) (hl : '<' ∉ label) : Quiet f (refTag label) v := by
  intro x hx hs
  cases hr : f (x ++ v) with
  | none => rfl
  | some r =>
    exfalso
    obtain ⟨y, hy⟩ := hf _ _ hr
    obtain ⟨c, x, rfl⟩ := List.exists_cons_of_ne_nil hx
    simp only [boxOpen, List.cons_append, List.nil_append, List.cons.injEq] at hy
    obtain ⟨rfl, hy⟩ := hy
    obtain ⟨p, hp⟩ := hs
    have hno : '<' ∉ ['r', 'e', 'f', '>'] ++ label := by
      rw [List.mem_append, not_or]; exact ⟨by decide, hl⟩
    have hsplit : p ++ '<' :: x
        = '<' :: ((['r', 'e', 'f', '>'] ++ label) ++ '<' :: ['/', 'r', 'e', 'f', '>']) := by
      simpa [refTag, refOpen, refClose] using hp
    cases p with
    | nil =>
      simp only [List.nil_append, List.cons.injEq, true_and, List.cons_append] at hsplit
      rw [hsplit] at hy
      simp at hy
    | cons d p =>
      simp only [List.cons_append, List.cons.injEq] at hsplit
      obtain ⟨-, hx'⟩ := append_cons_unique hno (by decide) hsplit.2
      rw [hx'] at hy
      simp at hy

theorem boxOpen_prefix_of_read {s : Str} {r : List (Capture Char) × Nat}
    (h : (coordBlockRe n).read s = some r) : boxOpen <+: s := by
  obtain ⟨gs, len⟩ := r
  obtain ⟨ds, -, t, rfl, -⟩ := read_coordBlockRe.mp h
  rw [coordBlock, List.append_assoc]
  exact List.prefix_append _ _

/-! ## Along the runs -/

theorem Block.text_eq_close (b : Block) : ∃ z, b.text = z ++ boxClose :=
  ⟨boxOpen ++ b.body, by simp [Block.text]⟩

theorem Sibling.text_eq_close (x : Sibling) : ∃ z, x.text = z ++ boxClose := by
  obtain ⟨z, hz⟩ := x.block.text_eq_close
  exact ⟨x.space ++ z, by rw [Sibling.text, hz, List.append_assoc]⟩

theorem exists_boxes_eq (r : RefRun) : ∃ z, r.boxes = z ++ boxClose := by
  have : ∀ xs : List Sibling, xs ≠ [] → ∃ z, siblingsText xs = z ++ boxClose := by
    intro xs
    induction xs with
    | nil => intro h; exact absurd rfl h
    | cons x xs ih =>
      intro _
      cases xs with
      | nil =>
        obtain ⟨z, hz⟩ := x.text_eq_close
        exact ⟨z, by rw [siblingsText_cons, hz, siblingsText_nil, List.append_nil]⟩
      | cons y ys =>
        obtain ⟨z, hz⟩ := ih (by simp)
        exact ⟨x.text ++ z, by rw [siblingsText_cons, hz, List.append_assoc]⟩
  exact this r.siblings r.ne_nil

/-- The numeric blocks of one ref-run at their place in the answer. The source finds them in
    the text of the `boxes` group and adds the place where that starts. -/
def blocksInRun (n : Nat) (m : Match Char) : List (Match Char) :=
  ((coordBlockRe n).finditer (m.group boxesGroup)).map (Found.shift (m.startOf boxesGroup))

section Captures
variable (r : RefRun) (i j : Nat)

@[simp] theorem group_label : Match.group ⟨i, j, r.captures⟩ labelGroup = r.label := by
  simp [Match.group, RefRun.captures, labelGroup]

@[simp] theorem group_boxes : Match.group ⟨i, j, r.captures⟩ boxesGroup = r.boxes := by
  simp [Match.group, RefRun.captures, labelGroup, boxesGroup]

@[simp] theorem startOf_boxes :
    Match.startOf ⟨i, j, r.captures⟩ boxesGroup = i + (refTag r.label).length := by
  simp [Match.startOf, RefRun.captures, labelGroup, boxesGroup]

/-- They are the blocks of the run's own text, since the tag in front of the group holds none.
    -/
theorem blocksInRun_eq :
    blocksInRun n ⟨i, j, r.captures⟩ = scanFrom (coordBlockRe n).read i 0 r.text := by
  rw [blocksInRun, group_boxes, startOf_boxes, RefRun.text,
    scanFrom_quiet _ (quiet_refTag (fun _ _ h => boxOpen_prefix_of_read h) r.label_ok),
    scanFrom_eq_shift, Regex.finditer]

end Captures

/-- The scan for numeric blocks splits at both borders of a run. -/
theorem scan_around_run {u v : Str} (r : RefRun) (pos : Nat) :
    scanFrom (coordBlockRe n).read pos 0 (u ++ (r.text ++ v))
      = scanFrom (coordBlockRe n).read pos 0 u
        ++ (scanFrom (coordBlockRe n).read (pos + u.length) 0 r.text
        ++ scanFrom (coordBlockRe n).read (pos + u.length + r.text.length) 0 v) := by
  have hopen : r.text ++ v
      = '<' :: 'r' :: (['e', 'f', '>'] ++ (r.label ++ (refClose ++ (r.boxes ++ v)))) := by
    simp [RefRun.text, refTag, refOpen]
  have hclose : ∃ z, r.text = z ++ boxClose := by
    obtain ⟨z, hz⟩ := exists_boxes_eq r
    exact ⟨refTag r.label ++ z, by rw [RefRun.text, hz, List.append_assoc]⟩
  have hcut : Cut (coordBlockRe n).read u (r.text ++ v) := by
    rw [hopen]; exact cut_before_tag (by decide) (by decide)
  have hcut' : Cut (coordBlockRe n).read r.text v := by
    obtain ⟨z, hz⟩ := hclose
    rw [hz]; exact cut_after_close
  rw [scanFrom_append (proper_coordBlockRe n) u hcut (Nat.zero_le _),
    scanFrom_append (proper_coordBlockRe n) r.text hcut' (Nat.zero_le _)]

/-- By induction on the runs, from any position: what lies between two runs overlaps neither.
    -/
theorem filter_overlapping_from (n : Nat) (s : Str) : ∀ pos : Nat,
    (scanFrom (coordBlockRe n).read pos 0 s).filter
        (fun m => (scanFrom refRunRe.read pos 0 s).any fun i => m.overlaps i)
      = (scanFrom refRunRe.read pos 0 s).flatMap (blocksInRun n) := by
  induction s using scan_induction proper_refRunRe with
  | stop s hq => intro pos; rw [scanFrom_of_quiet hq]; simp
  | step u w v b hq hw hr ih =>
    intro pos
    have hread := hr
    obtain ⟨r, t, hrt, -, rfl, hlen⟩ := read_refRunRe.mp hr
    obtain ⟨rfl, rfl⟩ := List.append_inj hrt hlen
    have hbounds := @scanFrom_bounds _ _ _ (proper_coordBlockRe n)
    have hruns := @scanFrom_bounds _ _ _ proper_refRunRe
    rw [scanFrom_step hq hw hread, scan_around_run, List.filter_append, List.filter_append,
      List.flatMap_cons, blocksInRun_eq, ← ih (pos + u.length + r.text.length)]
    -- In front of the run nothing overlaps, inside everything does, behind it the run itself
    -- plays no part.
    have hbefore : (scanFrom (coordBlockRe n).read pos 0 u).filter (fun m =>
        (⟨pos + u.length, pos + u.length + r.text.length, r.captures⟩
          :: scanFrom refRunRe.read (pos + u.length + r.text.length) 0 v).any
            fun i => m.overlaps i) = [] := by
      rw [List.filter_eq_nil_iff]
      intro m hm
      have hb := hbounds u hm
      rw [any_overlaps_eq_false]
      · exact Bool.false_ne_true
      · intro i hi
        left
        rcases List.mem_cons.mp hi with rfl | hi
        · exact hb.2.2
        · have := hruns v hi
          omega
    have hinside : (scanFrom (coordBlockRe n).read (pos + u.length) 0 r.text).filter (fun m =>
        (⟨pos + u.length, pos + u.length + r.text.length, r.captures⟩
          :: scanFrom refRunRe.read (pos + u.length + r.text.length) 0 v).any
            fun i => m.overlaps i) = scanFrom (coordBlockRe n).read (pos + u.length) 0 r.text := by
      rw [List.filter_eq_self]
      intro m hm
      have hb := hbounds r.text hm
      rw [List.any_cons, Found.overlaps_iff.mpr ⟨by simp only; omega, by simp only; omega⟩,
        Bool.true_or]
    have hbehind : (scanFrom (coordBlockRe n).read (pos + u.length + r.text.length) 0 v).filter
          (fun m => (⟨pos + u.length, pos + u.length + r.text.length, r.captures⟩
            :: scanFrom refRunRe.read (pos + u.length + r.text.length) 0 v).any
              fun i => m.overlaps i)
        = (scanFrom (coordBlockRe n).read (pos + u.length + r.text.length) 0 v).filter
          (fun m => (scanFrom refRunRe.read (pos + u.length + r.text.length) 0 v).any
              fun i => m.overlaps i) := by
      refine List.filter_congr fun m hm => ?_
      rw [List.any_cons, Found.not_overlaps_iff.mpr (.inr (hbounds v hm).1), Bool.false_or]
    rw [hbefore, hinside, hbehind, List.nil_append]

/-- **The numeric blocks that overlap a ref-run are the blocks of the runs**, in order. -/
theorem filter_overlapping_eq (n : Nat) (s : Str) :
    ((coordBlockRe n).finditer s).filter
        (fun m => (refRunRe.finditer s).any fun i => m.overlaps i)
      = (refRunRe.finditer s).flatMap (blocksInRun n) :=
  filter_overlapping_from n s 0

/-- What is found at a place is a numeric block that starts there. -/
theorem exists_of_mem_finditer {s : Str} {m : Match Char}
    (h : m ∈ (coordBlockRe n).finditer s) :
    ∃ ds : List Numeral, ds.length = n ∧ (∃ t, s.drop m.start = coordBlock ds ++ t) ∧
      m.val = coordCaptures 1 5 ds ∧ m.stop = m.start + (coordBlock ds).length := by
  have hb := scanFrom_bounds (proper_coordBlockRe n) s h
  obtain ⟨k, hk, -, hr⟩ := scanFrom_reads s h
  obtain ⟨ds, hds, t, ht, hgs, hlen⟩ := read_coordBlockRe.mp hr
  exact ⟨ds, hds, ⟨t, by rw [hk, Nat.zero_add]; exact ht⟩, hgs, by omega⟩

/-- Numeric blocks that share a symbol start at the same place and have the same arity. -/
theorem coordBlock_overlap {s : Str} {i j : Nat} {ds es : List Numeral} {t t' : Str}
    (hi : s.drop i = coordBlock ds ++ t) (hj : s.drop j = coordBlock es ++ t') (hij : i ≤ j)
    (hlt : j < i + (coordBlock ds).length) : ds = es := by
  obtain ⟨d, rfl⟩ := Nat.exists_eq_add_of_le hij
  rw [← List.drop_drop, hi, List.drop_append_of_le_length (by omega)] at hj
  cases d with
  | zero =>
    simp only [List.drop_zero, coordBlock, List.append_assoc] at hj
    exact (coordsText_inj (List.append_cancel_left hj)).1
  | succ d =>
    -- An inner `<` is followed by a digit or `/`, a block starts with `<b`.
    exfalso
    have hlen : d + 1 < (coordBlock ds).length := by omega
    have hsplit := (List.take_append_drop (d + 1) (coordBlock ds)).symm
    cases hdrop : (coordBlock ds).drop (d + 1) with
    | nil => rw [List.drop_eq_nil_iff] at hdrop; omega
    | cons c b =>
      rw [hdrop] at hj hsplit
      simp only [coordBlock, boxOpen, List.cons_append, List.nil_append, List.append_assoc,
        List.cons.injEq] at hj
      obtain ⟨rfl, hj⟩ := hj
      have hne : (coordBlock ds).take (d + 1) ≠ [] := by
        rw [← List.length_pos_iff, List.length_take]; omega
      obtain ⟨c', b', rfl, hc'⟩ := coordBlock_inner hne hsplit
      simp only [List.cons_append, List.cons.injEq] at hj
      rw [hj.1] at hc'
      exact absurd hc' (by decide)

/-- A box and a point never overlap: if they share a symbol they start together, and then they
    have as many coordinates as each other. So the points that `parse_points` drops for
    overlapping a box are none. -/
theorem not_overlaps_of_ne {k : Nat} (hk : n ≠ k) {s : Str} {a b : Match Char}
    (ha : a ∈ (coordBlockRe n).finditer s) (hb : b ∈ (coordBlockRe k).finditer s) :
    a.overlaps b = false := by
  obtain ⟨ds, hds, ⟨t, ht⟩, -, hstop⟩ := exists_of_mem_finditer ha
  obtain ⟨es, hes, ⟨t', ht'⟩, -, hstop'⟩ := exists_of_mem_finditer hb
  by_contra h
  obtain ⟨hab, hba⟩ := Found.overlaps_iff.mp (Bool.eq_true_of_not_eq_false h)
  rcases Nat.le_total a.start b.start with hle | hle
  · exact hk (by rw [← hds, ← hes, coordBlock_overlap ht ht' hle (by omega)])
  · exact hk (by rw [← hds, ← hes, coordBlock_overlap ht' ht hle (by omega)])

/-! ## Along the closed blocks -/

/-- A numeric block has no `</box>` but its own, so `_ANY_BOX_RE` reads it too. -/
theorem close_not_infix_coordsText (ds : List Numeral) : ¬ boxClose <:+: coordsText ds := by
  intro h
  exact slash_notMem_coordsText ds (h.subset (by simp [boxClose]))

/-- A numeric block as a closed block. -/
def Block.ofCoords (ds : List Numeral) : Block := ⟨coordsText ds, close_not_infix_coordsText ds⟩

@[simp] theorem Block.text_ofCoords (ds : List Numeral) :
    (Block.ofCoords ds).text = coordBlock ds := rfl

/-- Where no closed block is read, no numeric one is. -/
theorem quiet_coordBlockRe_of_quiet {u v : Str} (h : Quiet anyBoxRe.read u v) :
    Quiet (coordBlockRe n).read u v := by
  intro x hx hs
  cases hr : (coordBlockRe n).read (x ++ v) with
  | none => rfl
  | some r =>
    obtain ⟨gs, len⟩ := r
    obtain ⟨ds, -, t, ht, -⟩ := read_coordBlockRe.mp hr
    have hread : anyBoxRe.read (x ++ v) = some ([], (coordBlock ds).length) :=
      read_anyBoxRe.mpr ⟨Block.ofCoords ds, t, ht, rfl, rfl⟩
    rw [h x hx hs] at hread
    exact absurd hread (by simp)

/-- **Every numeric block lies in a closed block**: counting them in the answer is counting
    them span by span. -/
theorem length_finditer_coordBlockRe (n : Nat) (s : Str) :
    ((coordBlockRe n).finditer s).length
      = ((wholes anyBoxRe s).map fun w => ((coordBlockRe n).finditer w).length).sum := by
  induction s using scan_induction proper_anyBoxRe with
  | stop s hq =>
    rw [wholes_quiet hq, Regex.finditer, scanFrom_of_quiet (quiet_coordBlockRe_of_quiet hq)]
    rfl
  | step u w v b hq hw hr ih =>
    obtain ⟨k, t, hkt, rfl, hlen⟩ := read_anyBoxRe.mp hr
    obtain ⟨rfl, rfl⟩ := List.append_inj hkt hlen
    obtain ⟨z, hz⟩ := k.text_eq_close
    have hcut : Cut (coordBlockRe n).read k.text v := by rw [hz]; exact cut_after_close
    rw [wholes_step hq hw hr, List.map_cons, List.sum_cons, ← ih, Regex.finditer,
      scanFrom_quiet u (quiet_coordBlockRe_of_quiet hq),
      scanFrom_append (proper_coordBlockRe n) k.text hcut (Nat.zero_le _), List.length_append,
      length_finditer_eq, length_finditer_eq]

end LocateAnything.Worker
