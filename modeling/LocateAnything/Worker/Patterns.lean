import LocateAnything.Worker.Parsing

/-!
# What the expressions read

The expressions of `worker/parsing.py` backtrack, take greedily and lazily, and capture
groups, and the engine of `Lib/Regex` does all that with a list of states. A proof about the
parser that had to run it would redo the same search each time. So there is one specification
per expression, as an `iff` between what `Regex.read` answers and a decomposition of the text:

* `read_coordBlockRe` — `_BOX_RE` and `_POINT_RE` read a `CoordBlock`; * `read_anyBoxRe` —
`_ANY_BOX_RE` reads a `<box>`, a body without `</box>`, a `</box>`; * `read_refRunRe` —
`_REF_RUN_RE` reads a `RefRun`: a tag and every sibling block behind it.

After this file no proof unfolds the engine again. The decompositions are structures that
carry what the expression demands of each part (a `Numeral` is not empty and decimal, a
`Block`'s body holds no `</box>`, a `RefRun`'s label holds no `<`), so that a text which is
built from them is read back without side conditions.

Two of them are worth a warning. A lazy `.*?` stops at the first `</box>` there is, so the
body of a closed block may well hold a `<box>`, a `<ref>` or anything else; that is how a
block that was never closed swallows what comes behind it. And a run is maximal: what follows
it must not be another sibling (`NoSibling`), or the greedy loop would have taken that too.
-/

set_option autoImplicit false

namespace LocateAnything.Worker

open LocateAnything.Regex LocateAnything.Scan LocateAnything.Words Py

/-! ## Numeric blocks -/

/-- A non-empty run of decimal digits. Decimal in Unicode's sense, since `\d` on a `str` is;
    `int()` reads all of them. -/
structure Numeral where
  text : Str
  ne_nil : text ≠ []
  decimal : ∀ c ∈ text, isDecimal c = true

/-- `str(n)` as a numeral. -/
def Numeral.ofNat (n : Nat) : Numeral := ⟨str n, str_ne_nil n, isDecimal_of_mem_str⟩

theorem Numeral.ext {a b : Numeral} (h : a.text = b.text) : a = b := by
  cases a; cases b; simp only at h; subst h; rfl

/-- `<d1><d2>…` -/
def coordsText (ds : List Numeral) : Str :=
  ds.flatMap fun d => '<' :: (d.text ++ ['>'])

/-- `<box><d1><d2>…</box>` -/
def coordBlock (ds : List Numeral) : Str :=
  boxOpen ++ (coordsText ds ++ boxClose)

/-- The groups `k, k + 1, …` of the coordinates, the first of which opens at `pos`. Where a
    group opens matters only to the points, whose places are computed from it. -/
def coordCaptures : (k pos : Nat) → List Numeral → List (Capture Char)
  | _, _, [] => []
  | k, pos, d :: ds => ⟨k, pos + 1, d.text⟩ :: coordCaptures (k + 1) (pos + d.text.length + 2) ds

@[simp] theorem coordsText_nil : coordsText [] = [] := rfl

@[simp] theorem coordsText_cons (d : Numeral) (ds : List Numeral) :
    coordsText (d :: ds) = '<' :: (d.text ++ '>' :: coordsText ds) := by
  simp [coordsText]

theorem run_coordsRe_zero (k : Nat) (st : State Char) :
    run (coordsRe k 0) st = if boxClose.isPrefixOf st.rest then [st.skip 6] else [] := by
  rw [coordsRe, run_lit]; rfl

/-- One coordinate and the rest: the digits are all taken, greedy or not, because `>` is none.
    -/
theorem run_coordsRe_succ (k n : Nat) (st : State Char) :
    run (coordsRe k (n + 1)) st =
      if ['<'].isPrefixOf st.rest then
        if 0 < (st.skip 1).count isDecimal then
          let st2 := (st.skip 1).close k ((st.skip 1).skip ((st.skip 1).count isDecimal))
          if ['>'].isPrefixOf st2.rest then run (coordsRe (k + 1) n) (st2.skip 1) else []
        else []
      else [] := by
  have hF := @refuses_lit Char _ isDecimal '>' (by decide) [] (coordsRe (k + 1) n)
    ((st.skip 1).close k) (fun _ => rfl)
  rw [coordsRe, run_cat, run_lit_flatMap]
  refine if_congr Iff.rfl ?_ rfl
  rw [run_cat, run_group_flatMap]
  refine (run_many1_flatMap hF true (st.skip 1)).trans ?_
  refine if_congr Iff.rfl ?_ rfl
  exact (run_cat _ _ _).trans (run_lit_flatMap _ _ _)

/-- `_BOX_RE`'s tail reads the coordinates that are there. -/
theorem run_coordsRe_of (ds : List Numeral) : ∀ (k : Nat) (st : State Char) (t : Str),
    st.rest = coordsText ds ++ (boxClose ++ t) →
    run (coordsRe k ds.length) st
      = [⟨st.pos + (coordsText ds).length + 6, t, st.groups ++ coordCaptures k st.pos ds⟩] := by
  induction ds with
  | nil =>
    intro k st t h
    rw [coordsText_nil, List.nil_append] at h
    rw [List.length_nil, run_coordsRe_zero, h, if_pos (by simp [boxClose, List.isPrefixOf])]
    simp [State.skip, h, boxClose, coordCaptures]
  | cons d ds ih =>
    intro k st t h
    rw [coordsText_cons] at h
    -- `\d+` takes the digits and gives none back: a `>` follows, which is no digit
    have hdec : ∀ c ∈ d.text, isDecimal c = true := d.decimal
    have hrest : (st.skip 1).rest = d.text ++ ('>' :: (coordsText ds ++ (boxClose ++ t))) := by
      rw [State.skip_rest, h]; simp
    have hcount : (st.skip 1).count isDecimal = d.text.length := by
      rw [State.count, hrest, List.takeWhile_append_of_pos hdec,
        List.takeWhile_cons_of_neg (by decide), List.append_nil]
    have hpos : 0 < d.text.length := List.length_pos_iff.mpr d.ne_nil
    rw [List.length_cons, run_coordsRe_succ, h, if_pos (by simp [List.isPrefixOf]), hcount,
      if_pos hpos]
    have hclose : ((st.skip 1).close k ((st.skip 1).skip d.text.length)).rest
        = '>' :: (coordsText ds ++ (boxClose ++ t)) := by
      rw [State.close_rest, State.skip_rest, hrest, List.drop_left]
    simp only [hclose]
    rw [if_pos (by simp [List.isPrefixOf]), ih (k + 1) _ t (by rw [State.skip_rest, hclose]; simp)]
    have htake : (st.skip 1).rest.take d.text.length = d.text := by rw [hrest, List.take_left]
    simp only [State.close, State.skip_pos, State.skip_groups, coordCaptures, List.append_assoc,
      List.singleton_append, Nat.add_sub_cancel_left, htake]
    congr 2
    · simp only [coordsText_cons, List.length_cons, List.length_append]
      omega
    · congr 3
      omega

/-- The converse of `run_coordsRe_of`, by the same recursion: whatever the engine accepts is
    coordinates up to a closing tag. -/
theorem exists_of_mem_run_coordsRe : ∀ (n k : Nat) (st st' : State Char),
    st' ∈ run (coordsRe k n) st →
    ∃ ds : List Numeral, ds.length = n ∧ ∃ t, st.rest = coordsText ds ++ (boxClose ++ t) := by
  intro n
  induction n with
  | zero =>
    intro k st st' h
    rw [run_coordsRe_zero] at h
    split at h
    · rename_i hp
      obtain ⟨t, ht⟩ := List.isPrefixOf_iff_prefix.mp hp
      exact ⟨[], rfl, t, by rw [coordsText_nil, List.nil_append, ht]⟩
    · simp at h
  | succ n ih =>
    intro k st st' h
    rw [run_coordsRe_succ] at h
    split at h
    · rename_i hlt
      split at h
      · rename_i hpos
        simp only at h
        split at h
        · rename_i hgt
          obtain ⟨ds, hlen, t, ht⟩ := ih _ _ _ h
          obtain ⟨r, hr⟩ := List.isPrefixOf_iff_prefix.mp hlt
          obtain ⟨r', hr'⟩ := List.isPrefixOf_iff_prefix.mp hgt
          have h1 : (st.skip 1).rest = r := by rw [State.skip_rest, ← hr]; simp
          -- what `\d+` took is a numeral
          let d : Numeral := ⟨r.takeWhile isDecimal,
            by rw [State.count, h1] at hpos; exact List.length_pos_iff.mp hpos,
            fun c hc => List.mem_takeWhile_imp hc⟩
          refine ⟨d :: ds, by simp [hlen], t, ?_⟩
          rw [State.close_rest, State.skip_rest, State.count, h1] at hr'
          rw [State.skip_rest, State.close_rest, State.skip_rest, State.count, h1, ← hr'] at ht
          simp only [List.singleton_append, List.drop_one, List.tail_cons] at ht hr'
          have hsplit : r = r.takeWhile isDecimal ++ '>' :: r' := by
            rw [hr']
            exact (List.prefix_iff_eq_append.mp (List.takeWhile_prefix _)).symm
          rw [← hr, coordsText_cons, List.singleton_append, List.cons_append, List.append_assoc,
            List.cons_append, ← ht]
          exact congrArg _ hsplit
        · simp at h
      · simp at h
    · simp at h

theorem length_coordBlock (ds : List Numeral) :
    (coordBlock ds).length = 5 + (coordsText ds).length + 6 := by
  simp only [coordBlock, boxOpen, boxClose, List.length_append, List.length_cons, List.length_nil]
  omega

theorem run_coordBlockRe_of (ds : List Numeral) (t : Str) :
    run (coordBlockRe ds.length) ⟨0, coordBlock ds ++ t, []⟩
      = [⟨(coordBlock ds).length, t, coordCaptures 1 5 ds⟩] := by
  have hpre : boxOpen.isPrefixOf (coordBlock ds ++ t) = true := by
    rw [List.isPrefixOf_iff_prefix, coordBlock, List.append_assoc]
    exact List.prefix_append _ _
  have hrest : ((⟨0, coordBlock ds ++ t, []⟩ : State Char).skip 5).rest
      = coordsText ds ++ (boxClose ++ t) := by
    simp [State.skip, coordBlock, boxOpen]
  rw [coordBlockRe, run_cat, run_lit_flatMap, if_pos hpre, show boxOpen.length = 5 from rfl,
    run_coordsRe_of ds 1 _ t hrest]
  simp [length_coordBlock]

theorem exists_of_mem_run_coordBlockRe {n : Nat} {s : Str} {st : State Char}
    (h : st ∈ run (coordBlockRe n) ⟨0, s, []⟩) :
    ∃ ds : List Numeral, ds.length = n ∧ ∃ t, s = coordBlock ds ++ t := by
  rw [coordBlockRe, run_cat, run_lit_flatMap] at h
  split at h
  · rename_i hp
    obtain ⟨r, rfl⟩ := List.isPrefixOf_iff_prefix.mp hp
    obtain ⟨ds, hds, t, ht⟩ := exists_of_mem_run_coordsRe _ _ _ _ h
    rw [State.skip_rest, List.drop_left] at ht
    exact ⟨ds, hds, t, by rw [coordBlock, List.append_assoc, List.append_assoc, ← ht]⟩
  · simp at h

/-- **`_BOX_RE` and `_POINT_RE` read numeric blocks.** -/
theorem read_coordBlockRe {n : Nat} {s : Str} {gs : List (Capture Char)} {len : Nat} :
    (coordBlockRe n).read s = some (gs, len) ↔
      ∃ ds : List Numeral, ds.length = n ∧ ∃ t, s = coordBlock ds ++ t ∧
        gs = coordCaptures 1 5 ds ∧ len = (coordBlock ds).length := by
  constructor
  · intro h
    rw [Regex.read] at h
    cases hr : (run (coordBlockRe n) ⟨0, s, []⟩).head? with
    | none => rw [hr] at h; simp at h
    | some st =>
      obtain ⟨ds, rfl, t, rfl⟩ := exists_of_mem_run_coordBlockRe (List.mem_of_mem_head? hr)
      rw [run_coordBlockRe_of] at h
      simp only [List.head?_cons, Option.map_some, Option.some.injEq, Prod.mk.injEq] at h
      exact ⟨ds, rfl, t, rfl, h.1.symm, h.2.symm⟩
  · rintro ⟨ds, rfl, t, rfl, rfl, rfl⟩
    rw [Regex.read, run_coordBlockRe_of]
    rfl

/-- A full match is a match that leaves nothing, so the rest in `read_coordBlockRe` is empty.
    -/
theorem fullmatch_coordBlockRe {n : Nat} {w : Str} :
    (coordBlockRe n).fullmatch w = true ↔
      ∃ ds : List Numeral, ds.length = n ∧ w = coordBlock ds := by
  rw [Regex.fullmatch, List.any_eq_true]
  constructor
  · rintro ⟨st, hst, hnil⟩
    obtain ⟨ds, rfl, t, rfl⟩ := exists_of_mem_run_coordBlockRe hst
    rw [run_coordBlockRe_of, List.mem_singleton] at hst
    rw [hst, List.isEmpty_iff] at hnil
    exact ⟨ds, rfl, by rw [show t = [] from hnil, List.append_nil]⟩
  · rintro ⟨ds, rfl, rfl⟩
    have := run_coordBlockRe_of ds []
    rw [List.append_nil] at this
    exact ⟨_, by rw [this]; exact List.mem_singleton_self _, rfl⟩

/-- `<box>None</box>` -/
def noneBlock : Str := boxOpen ++ (['N', 'o', 'n', 'e'] ++ boxClose)

/-- `<box>none</box>` -/
def noneBlockLower : Str := boxOpen ++ (['n', 'o', 'n', 'e'] ++ boxClose)

/-- The abstention has two spellings and no others. -/
theorem fullmatch_noneRe {w : Str} :
    noneRe.fullmatch w = true ↔ w = noneBlock ∨ w = noneBlockLower := by
  constructor
  · intro h
    rw [Regex.fullmatch, List.any_eq_true] at h
    obtain ⟨st, hst, hnil⟩ := h
    rw [noneRe, run_cat, run_lit_flatMap] at hst
    split at hst
    · rename_i hp
      obtain ⟨r, rfl⟩ := List.isPrefixOf_iff_prefix.mp hp
      rw [run_cat, run, State.skip_rest, List.drop_left] at hst
      cases r with
      | nil => simp at hst
      | cons c r =>
        simp only at hst
        split at hst
        · rename_i hc
          simp only [List.flatMap_cons, List.flatMap_nil, List.append_nil, State.skip_skip] at hst
          rw [run_lit] at hst
          split at hst
          · rename_i hp'
            obtain ⟨t, ht⟩ := List.isPrefixOf_iff_prefix.mp hp'
            rw [List.mem_singleton.mp hst, List.isEmpty_iff] at hnil
            simp only [State.skip_rest, boxOpen, List.length_cons, List.length_nil,
              List.cons_append, List.nil_append, List.drop_succ_cons, List.drop_zero] at ht hnil
            subst ht
            have htail : t = [] := by simpa using hnil
            subst htail
            simp only [Bool.or_eq_true, decide_eq_true_eq] at hc
            rcases hc with rfl | rfl
            · exact Or.inl rfl
            · exact Or.inr rfl
          · simp at hst
        · simp at hst
    · simp at hst
  · rintro (rfl | rfl)
    · decide
    · decide

/-! ## Closed blocks -/

/-- A body up to the first `</box>`. It is the freshness that makes the decomposition of a
    text unique. -/
structure Block where
  body : Str
  fresh : ¬ boxClose <:+: body

/-- `<box>body</box>` -/
def Block.text (b : Block) : Str := boxOpen ++ (b.body ++ boxClose)

theorem Block.text_append (b : Block) (t : Str) :
    b.text ++ t = boxOpen ++ (b.body ++ (boxClose ++ t)) := by
  simp [Block.text]

theorem Block.length_text (b : Block) : b.text.length = 5 + (b.body.length + 6) := by
  simp only [Block.text, boxOpen, boxClose, List.length_append, List.length_cons, List.length_nil]

/-- The lazy loop grows the body one symbol at a time and looks for the closing tag first, so
    the first state it reaches is the one behind the first `</box>`. -/
theorem head?_anyBoxRe_of {st : State Char} {b : Block} {t : Str} (h : st.rest = b.text ++ t) :
    (run anyBoxRe st).head? = some (st.skip b.text.length) := by
  rw [Block.text_append] at h
  have hpre : boxOpen.isPrefixOf st.rest = true := by
    rw [h, List.isPrefixOf_iff_prefix]; exact List.prefix_append _ _
  have hrest : (st.skip boxOpen.length).rest = b.body ++ (boxClose ++ t) := by
    rw [State.skip_rest, h, List.drop_left]
  have huntil : until? boxClose (b.body ++ (boxClose ++ t)) = some (b.body, t) :=
    until?_eq (by decide) b.body b.fresh
  rw [anyBoxRe, run_cat, run_lit_flatMap, if_pos hpre, head?_upTo, hrest, huntil,
    Option.map_some, State.skip_skip, Block.length_text]
  rfl

theorem exists_of_head?_anyBoxRe {st st' : State Char} (h : (run anyBoxRe st).head? = some st') :
    ∃ b : Block, ∃ t, st.rest = b.text ++ t := by
  rw [anyBoxRe, run_cat, run_lit_flatMap] at h
  split at h
  · rename_i hp
    obtain ⟨r, hr⟩ := List.isPrefixOf_iff_prefix.mp hp
    rw [head?_upTo, State.skip_rest, ← hr, List.drop_left] at h
    cases hu : until? boxClose r with
    | none => rw [hu] at h; simp at h
    | some x =>
      obtain ⟨body, t⟩ := x
      have hfresh : ¬ boxClose <:+: body := until?_fresh r hu
      refine ⟨⟨body, hfresh⟩, t, ?_⟩
      rw [Block.text_append, ← hr, until?_some r hu]
  · simp at h

/-- **`_ANY_BOX_RE` reads closed blocks.** -/
theorem read_anyBoxRe {s : Str} {gs : List (Capture Char)} {len : Nat} :
    anyBoxRe.read s = some (gs, len) ↔
      ∃ b : Block, ∃ t, s = b.text ++ t ∧ gs = [] ∧ len = b.text.length := by
  constructor
  · intro h
    rw [Regex.read] at h
    cases hr : (run anyBoxRe ⟨0, s, []⟩).head? with
    | none => rw [hr] at h; simp at h
    | some st =>
      obtain ⟨b, t, hbt⟩ := exists_of_head?_anyBoxRe hr
      rw [head?_anyBoxRe_of hbt] at hr
      rw [head?_anyBoxRe_of hbt] at h
      simp only [Option.map_some, Option.some.injEq, Prod.mk.injEq, State.skip_groups,
        State.skip_pos, Nat.zero_add] at h
      exact ⟨b, t, hbt, h.1.symm, h.2.symm⟩
  · rintro ⟨b, t, rfl, rfl, rfl⟩
    rw [Regex.read, head?_anyBoxRe_of (b := b) (t := t) rfl]
    simp

/-! ## Ref-runs -/

/-- One `\s*<box>…</box>` of a run, with the space in front of it. -/
structure Sibling where
  space : Str
  space_ok : ∀ c ∈ space, isSpace c = true
  block : Block

def Sibling.text (x : Sibling) : Str := x.space ++ x.block.text

/-- The siblings of a run, one behind the other. -/
def siblingsText (xs : List Sibling) : Str := xs.flatMap Sibling.text

@[simp] theorem siblingsText_nil : siblingsText [] = [] := rfl

@[simp] theorem siblingsText_cons (x : Sibling) (xs : List Sibling) :
    siblingsText (x :: xs) = x.text ++ siblingsText xs := by
  simp [siblingsText]

/-- No further sibling stands at the front. -/
def NoSibling (t : Str) : Prop := ∀ (x : Sibling) (r : Str), t ≠ x.text ++ r

theorem run_siblingRe (st : State Char) :
    run siblingRe st = run anyBoxRe (st.skip (st.count isSpace)) := by
  have hF : Refuses isSpace (run anyBoxRe) :=
    @refuses_lit Char _ isSpace '<' (by decide) _ _ id (fun _ => rfl)
  exact run_many_flatMap hF true st

theorem head?_siblingRe_of {st : State Char} {x : Sibling} {t : Str}
    (h : st.rest = x.text ++ t) :
    (run siblingRe st).head? = some (st.skip x.text.length) := by
  have hcount : st.count isSpace = x.space.length := by
    rw [State.count, h, Sibling.text, List.append_assoc,
      List.takeWhile_append_of_pos x.space_ok, Block.text_append]
    simp [boxOpen, show isSpace '<' = false by decide]
  have hrest : (st.skip x.space.length).rest = x.block.text ++ t := by
    rw [State.skip_rest, h, Sibling.text, List.append_assoc, List.drop_left]
  rw [run_siblingRe, hcount, head?_anyBoxRe_of hrest, State.skip_skip, Sibling.text,
    List.length_append]

theorem exists_of_head?_siblingRe {st st' : State Char}
    (h : (run siblingRe st).head? = some st') :
    ∃ x : Sibling, ∃ t, st.rest = x.text ++ t := by
  rw [run_siblingRe] at h
  obtain ⟨b, t, hb⟩ := exists_of_head?_anyBoxRe h
  refine ⟨⟨st.rest.takeWhile isSpace, fun c hc => List.mem_takeWhile_imp hc, b⟩, t, ?_⟩
  rw [Sibling.text, List.append_assoc, ← hb, State.skip_rest]
  exact (List.prefix_iff_eq_append.mp (List.takeWhile_prefix _)).symm

theorem head?_siblingRe_none {st : State Char} (h : NoSibling st.rest) :
    (run siblingRe st).head? = none := by
  cases hr : (run siblingRe st).head? with
  | none => rfl
  | some st' =>
    obtain ⟨x, t, hx⟩ := exists_of_head?_siblingRe hr
    exact absurd hx (h x t)

/-- A sibling is never empty, which the loop of the engine needs: an empty round would end it.
    -/
theorem progress_siblingRe : Progress (run siblingRe) := by
  intro st st' h
  rw [run_siblingRe, anyBoxRe, run_cat, run_lit_flatMap] at h
  split at h
  · rename_i hp
    have hsuf := (run_suffix _ _ _ h).length_le
    have hle := (List.isPrefixOf_iff_prefix.mp hp).length_le
    simp only [State.skip_rest, List.length_drop, show boxOpen.length = 5 from rfl] at hsuf hle
    omega
  · simp at h

/-- Every text is the siblings at its front and a rest with none. By induction on the length,
    as the siblings are of any number and size. -/
theorem exists_siblings (s : Str) : ∃ xs t, s = siblingsText xs ++ t ∧ NoSibling t := by
  induction hn : s.length using Nat.strongRecOn generalizing s with
  | ind n ih =>
    by_cases h : NoSibling s
    · exact ⟨[], s, by simp, h⟩
    · simp only [NoSibling, not_forall, ne_eq, not_not] at h
      obtain ⟨x, r, rfl⟩ := h
      have hpos : 0 < x.text.length := by
        rw [Sibling.text, List.length_append, Block.length_text]; omega
      simp only [List.length_append] at hn
      obtain ⟨xs, t, rfl, ht⟩ := ih r.length (by omega) r rfl
      exact ⟨x :: xs, t, by simp, ht⟩

/-- The greedy loop takes all siblings and then fails to take another. The fuel is the length
    of what is left, and every sibling uses up some of it. -/
theorem loop_siblingRe : ∀ (xs : List Sibling) (n : Nat) (st : State Char) (t : Str),
    st.rest = siblingsText xs ++ t → NoSibling t → st.rest.length ≤ n →
    loop (run siblingRe) n st = st.skip (siblingsText xs).length := by
  intro xs
  induction xs with
  | nil =>
    intro n st t h ht hn
    rw [siblingsText_nil, List.nil_append] at h
    have hnone := @head?_siblingRe_none st (by rw [h]; exact ht)
    cases n with
    | zero => simp [loop]
    | succ n => simp [loop, hnone]
  | cons x xs ih =>
    intro n st t h ht hn
    rw [siblingsText_cons, List.append_assoc] at h
    have hpos : 0 < x.text.length := by
      rw [Sibling.text, List.length_append, Block.length_text]; omega
    cases n with
    -- the fuel is the length of the text, and every sibling takes some of it
    | zero => rw [h] at hn; simp only [List.length_append] at hn; omega
    | succ n =>
      have hrest : (st.skip x.text.length).rest = siblingsText xs ++ t := by
        rw [State.skip_rest, h, List.drop_left]
      have hlen : (st.skip x.text.length).rest.length ≤ n := by
        rw [State.skip_rest, List.length_drop]; omega
      simp only [loop, head?_siblingRe_of h]
      rw [ih n _ t hrest ht hlen, State.skip_skip, siblingsText_cons, List.length_append]

/-- A `<ref>` tag and the blocks behind it. That the label holds no `<` is the expression's
    own demand: a tag whose label does is none to it, though a reader would see one. -/
structure RefRun where
  label : Str
  label_ok : '<' ∉ label
  siblings : List Sibling
  ne_nil : siblings ≠ []

/-- `<ref>label</ref>` -/
def refTag (label : Str) : Str := refOpen ++ (label ++ refClose)

theorem length_refTag (label : Str) : (refTag label).length = 5 + (label.length + 6) := by
  simp only [refTag, refOpen, refClose, List.length_append, List.length_cons, List.length_nil]

/-- The text of the `boxes` group. -/
def RefRun.boxes (r : RefRun) : Str := siblingsText r.siblings

def RefRun.text (r : RefRun) : Str := refTag r.label ++ r.boxes

/-- The two groups of a run. -/
def RefRun.captures (r : RefRun) : List (Capture Char) :=
  [⟨labelGroup, 5, r.label⟩, ⟨boxesGroup, (refTag r.label).length, r.boxes⟩]

/-- Not the first symbol of a tag. -/
def notLt (c : Char) : Bool := c != '<'

/-- The tag, in front of the greedy loop: the label is everything up to the next `<`. -/
theorem run_refRunRe (s : Str) :
    run refRunRe ⟨0, refOpen ++ s, []⟩ =
      if refClose.isPrefixOf (s.dropWhile notLt) then
        run (group boxesGroup (plus true siblingRe))
          ⟨(refTag (s.takeWhile notLt)).length, (s.dropWhile notLt).drop 6,
            [⟨labelGroup, 5, s.takeWhile notLt⟩]⟩
      else [] := by
  -- `[^<]*` cannot stop early: `</ref>` starts with a `<`
  have hF : Refuses notLt fun st =>
      run (cat (lit refClose) (group boxesGroup (plus true siblingRe)))
        ((⟨5, s, []⟩ : State Char).close labelGroup st) :=
    refuses_lit (p := notLt) (d := '<') (by decide) _ _ fun _ => rfl
  have hskip : (⟨0, refOpen ++ s, []⟩ : State Char).skip refOpen.length = ⟨5, s, []⟩ := by
    simp [State.skip, refOpen]
  have hsplit : s.takeWhile notLt ++ s.dropWhile notLt = s := List.takeWhile_append_dropWhile
  have hclose : (⟨5, s, []⟩ : State Char).close labelGroup
      ((⟨5, s, []⟩ : State Char).skip (s.takeWhile notLt).length)
      = ⟨5 + (s.takeWhile notLt).length, s.dropWhile notLt,
          [⟨labelGroup, 5, s.takeWhile notLt⟩]⟩ := by
    have htake : s.take (s.takeWhile notLt).length = s.takeWhile notLt :=
      (List.prefix_iff_eq_take.mp (List.takeWhile_prefix _)).symm
    have hdrop : s.drop (s.takeWhile notLt).length = s.dropWhile notLt :=
      List.append_cancel_left
        ((List.prefix_iff_eq_append.mp (List.takeWhile_prefix _)).trans hsplit.symm)
    simp [State.close, State.skip, htake, hdrop]
  rw [refRunRe, run_cat, run_lit_flatMap, if_pos (by
    rw [List.isPrefixOf_iff_prefix]; exact List.prefix_append _ _), hskip, run_cat,
    run_group_flatMap]
  refine (run_many_flatMap hF false ⟨5, s, []⟩).trans ?_
  rw [State.count, hclose, run_cat, run_lit_flatMap, length_refTag, ← Nat.add_assoc]
  rfl

/-- The loop behind the tag takes every sibling. -/
theorem head?_plus_siblingRe {st : State Char} {xs : List Sibling} {t : Str} (hne : xs ≠ [])
    (h : st.rest = siblingsText xs ++ t) (ht : NoSibling t) :
    (run (plus true siblingRe) st).head? = some (st.skip (siblingsText xs).length) := by
  obtain ⟨x, xs, rfl⟩ := List.exists_cons_of_ne_nil hne
  rw [siblingsText_cons, List.append_assoc] at h
  have hfirst := head?_siblingRe_of h
  have hrest : (st.skip x.text.length).rest = siblingsText xs ++ t := by
    rw [State.skip_rest, h, List.drop_left]
  cases hr : run siblingRe st with
  | nil => rw [hr] at hfirst; simp at hfirst
  | cons st' more =>
    rw [hr, List.head?_cons, Option.some.injEq] at hfirst
    rw [plus, run_cat, hr, List.flatMap_cons, List.head?_append, hfirst, run,
      head?_starRun progress_siblingRe, loop_siblingRe xs _ _ t hrest ht (Nat.le_refl _),
      Option.some_or, State.skip_skip, siblingsText_cons, List.length_append]

/-- Forwards: a run and a rest without a sibling at its front are read as that run. -/
theorem head?_refRunRe_of (r : RefRun) {t : Str} (ht : NoSibling t) :
    (run refRunRe ⟨0, r.text ++ t, []⟩).head? = some ⟨r.text.length, t, r.captures⟩ := by
  have hlabel : ∀ c ∈ r.label, notLt c = true := fun c hc => by
    rw [notLt, bne_iff_ne]; rintro rfl; exact r.label_ok hc
  have htext : r.text ++ t = refOpen ++ (r.label ++ (refClose ++ (r.boxes ++ t))) := by
    simp [RefRun.text, refTag]
  have htake : (r.label ++ (refClose ++ (r.boxes ++ t))).takeWhile notLt = r.label := by
    rw [List.takeWhile_append_of_pos hlabel]; simp [refClose, notLt]
  have hdrop : (r.label ++ (refClose ++ (r.boxes ++ t))).dropWhile notLt
      = refClose ++ (r.boxes ++ t) := by
    rw [List.dropWhile_append_of_pos hlabel]; simp [refClose, notLt]
  have hpre : refClose.isPrefixOf (refClose ++ (r.boxes ++ t)) = true := by
    rw [List.isPrefixOf_iff_prefix]; exact List.prefix_append _ _
  rw [htext, run_refRunRe, htake, hdrop, if_pos hpre, show (refClose ++ (r.boxes ++ t)).drop 6
    = r.boxes ++ t from List.drop_left' rfl, run, List.head?_map,
    @head?_plus_siblingRe ⟨_, r.boxes ++ t, _⟩ _ _ r.ne_nil rfl ht, Option.map_some]
  have hboxes : siblingsText r.siblings = r.boxes := rfl
  simp only [State.close, State.skip, Nat.add_sub_cancel_left, RefRun.captures, RefRun.text,
    List.length_append, hboxes, List.take_left, List.drop_left, List.singleton_append]

/-- Backwards: what is read is a run, and the rest has no sibling at its front. -/
theorem exists_of_head?_refRunRe {s : Str} {st : State Char}
    (h : (run refRunRe ⟨0, s, []⟩).head? = some st) :
    ∃ r : RefRun, ∃ t, s = r.text ++ t ∧ NoSibling t := by
  have hmem : st ∈ run refRunRe ⟨0, s, []⟩ := List.mem_of_mem_head? h
  have hopen : refOpen.isPrefixOf s = true := by
    rw [refRunRe, run_cat, run_lit_flatMap] at hmem
    by_contra hno
    simp only [hno, if_false] at hmem
    exact absurd hmem (by simp)
  obtain ⟨s, rfl⟩ := List.isPrefixOf_iff_prefix.mp hopen
  rw [run_refRunRe] at hmem
  split at hmem
  · rename_i hclose
    obtain ⟨u, hu⟩ := List.isPrefixOf_iff_prefix.mp hclose
    rw [← hu, show (refClose ++ u).drop 6 = u from List.drop_left' rfl] at hmem
    obtain ⟨st', hst', -⟩ := List.mem_map.mp hmem
    rw [plus, run_cat] at hst'
    obtain ⟨st'', hst'', -⟩ := List.mem_flatMap.mp hst'
    obtain ⟨x, t', hx⟩ :=
      exists_of_head?_siblingRe (List.head?_eq_some_head (List.ne_nil_of_mem hst''))
    obtain ⟨xs, t, rfl, ht⟩ := exists_siblings t'
    have hlabel : '<' ∉ s.takeWhile notLt := fun hm => by
      have := List.mem_takeWhile_imp hm; simp [notLt] at this
    refine ⟨⟨s.takeWhile notLt, hlabel, x :: xs, by simp⟩, t, ?_, ht⟩
    simp only at hx
    rw [RefRun.text, refTag, RefRun.boxes, siblingsText_cons, List.append_assoc,
      List.append_assoc, List.append_assoc, List.append_assoc, ← hx, hu,
      List.takeWhile_append_dropWhile]
  · exact absurd hmem (by simp)

/-- **`_REF_RUN_RE` reads a tag and all the siblings behind it.** -/
theorem read_refRunRe {s : Str} {gs : List (Capture Char)} {len : Nat} :
    refRunRe.read s = some (gs, len) ↔
      ∃ r : RefRun, ∃ t, s = r.text ++ t ∧ NoSibling t ∧ gs = r.captures ∧
        len = r.text.length := by
  constructor
  · intro h
    rw [Regex.read] at h
    cases hr : (run refRunRe ⟨0, s, []⟩).head? with
    | none => rw [hr] at h; simp at h
    | some st =>
      obtain ⟨r, t, rfl, ht⟩ := exists_of_head?_refRunRe hr
      rw [head?_refRunRe_of r ht] at h
      simp only [Option.map_some, Option.some.injEq, Prod.mk.injEq] at h
      exact ⟨r, t, rfl, ht, h.1.symm, h.2.symm⟩
  · rintro ⟨r, t, rfl, ht, rfl, rfl⟩
    rw [Regex.read, head?_refRunRe_of r ht]
    rfl

end LocateAnything.Worker
