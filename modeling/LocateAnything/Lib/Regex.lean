import LocateAnything.Lib.Scan
import LocateAnything.Lib.Words

/-!
# Regular expressions with backtracking order

The semantics of a backtracking engine: an expression reads the front of a text in several
ways, *in the order the engine tries them*, and a match is the first way that succeeds. Greedy
and lazy repetition differ only in that order. Groups record where they started and the text
they read.

`Regex.run` is that list of ways; `Regex.read` is its head, a recogniser in the sense of
`Lib/Scan.lean`, and `Regex.finditer` the scan it drives. Expressions that can match the empty
text are outside `finditer`'s reading here (`Scan.Proper`).

The rules below are the ones a deterministic pattern needs: `run_lit` for a literal,
`run_many_flatMap` for a run of symbols whose continuation refuses those symbols (`\d+>`,
`[^<]*?</ref>`, `\s*<box>`), `head?_upTo` for `.*?word`, and `head?_star` for a greedy loop with
nothing behind it.
-/

set_option autoImplicit false

namespace LocateAnything

inductive Regex (α : Type) where
  /-- The empty text. -/
  | eps
  /-- One symbol of a class. -/
  | sym (p : α → Bool)
  | cat (r s : Regex α)
  /-- `r*` when `greedy`, `r*?` otherwise. -/
  | star (greedy : Bool) (r : Regex α)
  /-- Capture group number `k`. -/
  | group (k : Nat) (r : Regex α)

namespace Regex

open Scan Words

variable {α : Type}

/-- A captured group: its number, where it starts relative to the match, and its text. -/
structure Capture (α : Type) where
  group : Nat
  start : Nat
  text : List α
  deriving DecidableEq, Repr

/-- How far the engine has read: the symbols taken, what is left, the groups closed so far. -/
structure State (α : Type) where
  pos : Nat
  rest : List α
  groups : List (Capture α)

/-- Read `n` more symbols. -/
def State.skip (st : State α) (n : Nat) : State α := ⟨st.pos + n, st.rest.drop n, st.groups⟩

@[simp] theorem State.skip_pos (st : State α) (n : Nat) : (st.skip n).pos = st.pos + n := rfl
@[simp] theorem State.skip_rest (st : State α) (n : Nat) : (st.skip n).rest = st.rest.drop n := rfl
@[simp] theorem State.skip_groups (st : State α) (n : Nat) : (st.skip n).groups = st.groups := rfl

theorem State.skip_skip (st : State α) (m n : Nat) : (st.skip m).skip n = st.skip (m + n) := by
  simp [State.skip, Nat.add_assoc]

@[simp] theorem State.skip_zero (st : State α) : st.skip 0 = st := by simp [State.skip]

/-- Close group `k`, opened at `st`, at `st'`. -/
def State.close (k : Nat) (st st' : State α) : State α :=
  ⟨st'.pos, st'.rest, st'.groups ++ [⟨k, st.pos, st.rest.take (st'.pos - st.pos)⟩]⟩

@[simp] theorem State.close_pos (k : Nat) (st st' : State α) : (st.close k st').pos = st'.pos := rfl
@[simp] theorem State.close_rest (k : Nat) (st st' : State α) :
    (st.close k st').rest = st'.rest := rfl

/-- The iterations of a loop, in order. An iteration that reads nothing ends the loop, so the
    length of the text bounds how many there are. -/
def starRun (greedy : Bool) (step : State α → List (State α)) : Nat → State α → List (State α)
  | 0, st => [st]
  | n + 1, st =>
    let more := (step st).flatMap fun st' =>
      if st'.rest.length < st.rest.length then starRun greedy step n st' else []
    if greedy then more ++ [st] else st :: more

/-- Every way the expression reads the front of the text, first choice first. All the ways are
    needed although only the first one counts, since what follows may refuse it: that is
    backtracking. -/
def run : Regex α → State α → List (State α)
  | .eps, st => [st]
  | .sym p, st =>
    match st.rest with
    | c :: _ => if p c then [st.skip 1] else []
    | [] => []
  | .cat r s, st => (run r st).flatMap (run s)
  | .star greedy r, st => starRun greedy (run r) st.rest.length st
  | .group k r, st => (run r st).map (st.close k)

/-- The match at the front of the text: its groups and its length. -/
def read (r : Regex α) : Recogniser α (List (Capture α)) :=
  fun s => (run r ⟨0, s, []⟩).head?.map fun st => (st.groups, st.pos)

/-- A match: its span and its groups. -/
abbrev Match (α : Type) := Found (List (Capture α))

/-- `pattern.finditer(text)`. -/
def finditer (r : Regex α) (s : List α) : List (Match α) := scanFrom r.read 0 0 s

/-- `pattern.fullmatch(text)`: some way reads the whole text. -/
def fullmatch (r : Regex α) (s : List α) : Bool :=
  (run r ⟨0, s, []⟩).any fun st => st.rest.isEmpty

/-- `m.group(k)`. -/
def Match.group (m : Match α) (k : Nat) : List α :=
  ((m.val.find? fun c => c.group == k).map Capture.text).getD []

/-- `m.group(0)`, of a match in `s`. -/
def Match.whole (m : Match α) (s : List α) : List α := (s.drop m.start).take (m.stop - m.start)

/-- `m.start(k)`. -/
def Match.startOf (m : Match α) (k : Nat) : Nat :=
  m.start + ((m.val.find? fun c => c.group == k).map Capture.start).getD 0

/-- The texts of the matches. -/
def wholes (r : Regex α) (s : List α) : List (List α) :=
  (finditer r s).map fun m => m.whole s

/-! ## Derived forms -/

/-- The symbols of `w`, in order. -/
def lit [DecidableEq α] (w : List α) : Regex α :=
  w.foldr (fun c r => cat (sym fun d => decide (d = c)) r) eps

/-- `r+`. -/
def plus (greedy : Bool) (r : Regex α) : Regex α := cat r (star greedy r)

/-! ## The rules

Each rule is about an expression *with a continuation*: `(run r st).flatMap F` is what
`run (cat r s) st` is for `F = run s`, and reading a pattern is peeling one rule off after
another. -/

theorem run_cat (r s : Regex α) (st : State α) : run (cat r s) st = (run r st).flatMap (run s) :=
  rfl

theorem run_group_flatMap (k : Nat) (r : Regex α) (st : State α) (F : State α → List (State α)) :
    (run (group k r) st).flatMap F = (run r st).flatMap fun st' => F (st.close k st') := by
  simp only [run, List.flatMap_map]

theorem starRun_suffix {step : State α → List (State α)}
    (hs : ∀ st, ∀ st' ∈ step st, st'.rest <:+ st.rest) (g : Bool) :
    ∀ (n : Nat) (st : State α), ∀ st' ∈ starRun g step n st, st'.rest <:+ st.rest := by
  intro n
  induction n with
  | zero => intro st st' h; rw [starRun, List.mem_singleton] at h; rw [h]
  | succ n ih =>
    intro st st' h
    have hmore : ∀ st' ∈ (step st).flatMap (fun st' =>
        if st'.rest.length < st.rest.length then starRun g step n st' else []),
        st'.rest <:+ st.rest := by
      intro st' hm
      obtain ⟨st1, h1, h2⟩ := List.mem_flatMap.mp hm
      split at h2
      · exact (ih st1 st' h2).trans (hs st st1 h1)
      · simp at h2
    cases g
    · simp only [starRun, Bool.false_eq_true, if_false] at h
      rcases List.mem_cons.mp h with rfl | h
      · exact List.suffix_refl _
      · exact hmore st' h
    · simp only [starRun, if_true] at h
      rcases List.mem_append.mp h with h | h
      · exact hmore st' h
      · rw [List.mem_singleton.mp h]

theorem run_suffix : ∀ (r : Regex α) (st : State α), ∀ st' ∈ run r st, st'.rest <:+ st.rest
  | .eps, st, st', h => by rw [run, List.mem_singleton] at h; rw [h]
  | .sym p, st, st', h => by
    rw [run] at h
    split at h
    · split at h
      · rw [List.mem_singleton.mp h, State.skip_rest]; exact List.drop_suffix _ _
      · simp at h
    · simp at h
  | .cat r s, st, st', h => by
    obtain ⟨st1, h1, h2⟩ := List.mem_flatMap.mp h
    exact (run_suffix s st1 st' h2).trans (run_suffix r st st1 h1)
  | .star g r, st, st', h => starRun_suffix (run_suffix r) g _ st st' h
  | .group k r, st, st', h => by
    obtain ⟨st1, h1, rfl⟩ := List.mem_map.mp h
    exact run_suffix r st st1 h1

section Literals
variable [DecidableEq α]

theorem run_lit (w : List α) : ∀ (st : State α),
    run (lit w) st = if w.isPrefixOf st.rest then [st.skip w.length] else [] := by
  induction w with
  | nil => intro st; simp [lit, run, State.skip]
  | cons c w ih =>
    intro st
    have hcons : run (lit (c :: w)) st
        = (run (sym fun d => decide (d = c)) st).flatMap (run (lit w)) := rfl
    rw [hcons]
    cases hr : st.rest with
    | nil => simp [run, hr]
    | cons d t =>
      by_cases hd : d = c
      · subst hd
        simp only [run, hr, decide_true, if_true, List.flatMap_cons, List.flatMap_nil,
          List.append_nil, ih, State.skip_rest, List.drop_one, List.tail_cons, List.isPrefixOf,
          beq_self_eq_true, Bool.true_and, List.length_cons, State.skip_skip]
        rw [Nat.add_comm 1]
      · have : (c == d) = false := by simpa using fun h => hd h.symm
        simp [run, hr, hd, List.isPrefixOf, this]

theorem run_lit_flatMap (w : List α) (st : State α) (F : State α → List (State α)) :
    (run (lit w) st).flatMap F
      = if w.isPrefixOf st.rest then F (st.skip w.length) else [] := by
  rw [run_lit]
  split <;> simp

end Literals

/-- A continuation that refuses the symbols of a class. In front of one a run over the class
    has a single way to go on, and there is nothing to backtrack into. -/
def Refuses (p : α → Bool) (F : State α → List (State α)) : Prop :=
  ∀ st c t, st.rest = c :: t → p c = true → F st = []

/-- How many `p`-symbols stand at the front. -/
def State.count (st : State α) (p : α → Bool) : Nat := (st.rest.takeWhile p).length

theorem starRun_sym_flatMap {p : α → Bool} {F : State α → List (State α)} (hF : Refuses p F)
    (g : Bool) : ∀ (n : Nat) (st : State α), st.rest.length = n →
    (starRun g (run (sym p)) n st).flatMap F = F (st.skip (st.count p)) := by
  intro n
  induction n with
  | zero =>
    intro st h
    have : st.rest = [] := List.length_eq_zero_iff.mp h
    simp [starRun, State.count, this]
  | succ n ih =>
    intro st h
    cases hr : st.rest with
    | nil => rw [hr] at h; simp at h
    | cons c t =>
      by_cases hp : p c = true
      · have hlen : (st.skip 1).rest.length = n := by
          rw [State.skip_rest, hr]; rw [hr] at h; simpa using h
        have hstep : run (sym p) st = [st.skip 1] := by simp [run, hr, hp]
        have hcount : st.count p = 1 + (st.skip 1).count p := by
          simp only [State.count, State.skip_rest, hr, List.takeWhile_cons_of_pos hp]
          simp [Nat.add_comm]
        have hmore : (starRun g (run (sym p)) (n + 1) st).flatMap F
            = (starRun g (run (sym p)) n (st.skip 1)).flatMap F := by
          -- where one more symbol fits, `F` fails, so that greed does not matter
          have hnil : F st = [] := hF st c t hr hp
          have hlt : (st.skip 1).rest.length < st.rest.length := by omega
          simp only [starRun, hstep, List.flatMap_cons, List.flatMap_nil, List.append_nil,
            if_pos hlt]
          cases g <;> simp [hnil]
        rw [hmore, ih _ hlen, State.skip_skip, ← hcount]
      · have hstep : run (sym p) st = [] := by simp [run, hr, hp]
        have hcount : st.count p = 0 := by
          simp [State.count, hr, List.takeWhile_cons_of_neg hp]
        rw [hcount, State.skip_zero]
        cases g <;> simp [starRun, hstep]

/-- A literal refuses every class its first symbol is not in. -/
theorem refuses_lit [DecidableEq α] {p : α → Bool} {d : α} (hd : p d = false) (w : List α)
    (r : Regex α) {close : State α → State α} (hclose : ∀ st, (close st).rest = st.rest) :
    Refuses p fun st => run (cat (lit (d :: w)) r) (close st) := by
  intro st c t hr hp
  have hcd : (d == c) = false := by
    rw [beq_eq_false_iff_ne]
    rintro rfl
    exact absurd hp (by simp [hd])
  simp only [run_cat, run_lit_flatMap, hclose, hr, List.isPrefixOf, hcd, Bool.false_and,
    Bool.false_eq_true, if_false]

/-- A run of `p`-symbols before a continuation that refuses them takes all of them, greedy or
    lazy. -/
theorem run_many_flatMap {p : α → Bool} {F : State α → List (State α)} (hF : Refuses p F)
    (g : Bool) (st : State α) :
    (run (star g (sym p)) st).flatMap F = F (st.skip (st.count p)) :=
  starRun_sym_flatMap hF g _ st rfl

theorem run_many1_flatMap {p : α → Bool} {F : State α → List (State α)} (hF : Refuses p F)
    (g : Bool) (st : State α) :
    (run (plus g (sym p)) st).flatMap F
      = if 0 < st.count p then F (st.skip (st.count p)) else [] := by
  rw [plus, run_cat, List.flatMap_assoc]
  cases hr : st.rest with
  | nil => simp [run, hr, State.count]
  | cons c t =>
    by_cases hp : p c = true
    · have hcount : st.count p = 1 + (st.skip 1).count p := by
        simp only [State.count, State.skip_rest, hr, List.takeWhile_cons_of_pos hp]
        simp [Nat.add_comm]
      rw [if_pos (by omega)]
      have hstep : run (sym p) st = [st.skip 1] := by simp [run, hr, hp]
      rw [hstep, List.flatMap_cons, List.flatMap_nil, List.append_nil,
        run_many_flatMap hF, State.skip_skip, ← hcount]
    · have hcount : st.count p = 0 := by simp [State.count, hr, List.takeWhile_cons_of_neg hp]
      simp [run, hr, hp, hcount]

/-! ## `.*?word` -/

section UpTo
variable [DecidableEq α]

/-- `.*?w`, with `.` every symbol. -/
def upTo (w : List α) : Regex α := cat (star false (sym fun _ => true)) (lit w)

theorem starRun_any_head? (w : List α) : ∀ (n : Nat) (st : State α), st.rest.length = n →
    ((starRun false (run (sym fun _ => true)) n st).flatMap (run (lit w))).head?
      = (until? w st.rest).map fun r => st.skip (r.1.length + w.length) := by
  intro n
  induction n with
  | zero =>
    intro st h
    have hr : st.rest = [] := List.length_eq_zero_iff.mp h
    simp only [starRun, List.flatMap_cons, List.flatMap_nil, List.append_nil, run_lit, hr, until?]
    cases w <;> simp [List.isPrefixOf]
  | succ n ih =>
    intro st h
    cases hr : st.rest with
    | nil => rw [hr] at h; simp at h
    | cons c t =>
      have hlen : (st.skip 1).rest.length = n := by
        rw [State.skip_rest, hr]; rw [hr] at h; simpa using h
      have hlt : (st.skip 1).rest.length < st.rest.length := by omega
      have hstep : run (sym fun _ => true) st = [st.skip 1] := by simp [run, hr]
      have htail : (st.skip 1).rest = t := by simp [hr]
      simp only [starRun, hstep, List.flatMap_cons, List.flatMap_nil, List.append_nil,
        if_pos hlt, Bool.false_eq_true, if_false]
      rw [run_lit w st, hr, until?, List.head?_append]
      by_cases hp : w.isPrefixOf (c :: t) = true
      · simp [hp]
      · simp only [hp, Bool.false_eq_true, if_false, List.head?_nil, Option.none_or]
        rw [ih _ hlen, htail, Option.map_map]
        congr 1
        funext r
        simp only [Function.comp_apply, State.skip_skip, List.length_cons]
        congr 1
        omega

/-- The first way `.*?w` succeeds ends behind the first `w`. -/
theorem head?_upTo (w : List α) (st : State α) :
    (run (upTo w) st).head?
      = (until? w st.rest).map fun r => st.skip (r.1.length + w.length) :=
  starRun_any_head? w _ st rfl

end UpTo

/-! ## The texts of the matches -/

theorem length_finditer_eq (r : Regex α) (s : List α) (pos : Nat) :
    (scanFrom r.read pos 0 s).length = (finditer r s).length := by
  rw [scanFrom_eq_shift, List.length_map]; rfl

theorem whole_shift (m : Match α) (p s : List α) :
    Match.whole (m.shift p.length) (p ++ s) = m.whole s := by
  simp only [Match.whole, Found.shift_start, Found.shift_stop]
  rw [Nat.add_comm m.start, List.drop_length_add_append]
  congr 1
  omega

theorem wholes_quiet {r : Regex α} {s : List α} (h : Quiet r.read s []) : wholes r s = [] := by
  rw [wholes, finditer, scanFrom_of_quiet h, List.map_nil]

theorem wholes_quiet_append {r : Regex α} {u v : List α} (h : Quiet r.read u v) :
    wholes r (u ++ v) = wholes r v := by
  rw [wholes, finditer, scanFrom_quiet u h, scanFrom_eq_shift, Nat.zero_add, List.map_map, wholes]
  exact List.map_congr_left fun m _ => whole_shift m u v

theorem wholes_token {r : Regex α} {w v : List α} {b : List (Capture α)} (hw : w ≠ [])
    (h : r.read (w ++ v) = some (b, w.length)) : wholes r (w ++ v) = w :: wholes r v := by
  rw [wholes, finditer, scanFrom_token hw h, scanFrom_eq_shift, List.map_cons, List.map_map,
    Nat.zero_add]
  congr 1
  · simp [Match.whole]
  · rw [wholes]
    exact List.map_congr_left fun m _ => whole_shift m w v

theorem wholes_step {r : Regex α} {u w v : List α} {b : List (Capture α)}
    (hu : Quiet r.read u (w ++ v)) (hw : w ≠ []) (h : r.read (w ++ v) = some (b, w.length)) :
    wholes r (u ++ (w ++ v)) = w :: wholes r v := by
  rw [wholes_quiet_append hu, wholes_token hw h]

/-! ## Matches on both sides of a cut -/

theorem finditer_append {r : Regex α} (hp : Proper r.read) {u v : List α}
    (hc : Cut r.read u v) :
    finditer r (u ++ v) = finditer r u ++ (finditer r v).map (Found.shift u.length) := by
  rw [finditer, scanFrom_append hp u hc (Nat.zero_le _), Nat.zero_add, scanFrom_eq_shift v,
    finditer, finditer]

theorem wholes_append {r : Regex α} (hp : Proper r.read) {u v : List α} (hc : Cut r.read u v) :
    wholes r (u ++ v) = wholes r u ++ wholes r v := by
  have hleft : ∀ m ∈ finditer r u, Match.whole m (u ++ v) = Match.whole m u := by
    intro m hm
    have hb := scanFrom_bounds hp u hm
    rw [Match.whole, Match.whole, List.drop_append_of_le_length (by omega),
      List.take_append_of_le_length (by rw [List.length_drop]; omega)]
  rw [wholes, finditer_append hp hc, List.map_append, List.map_congr_left hleft, List.map_map,
    wholes, wholes]
  exact congrArg _ (List.map_congr_left fun m _ => whole_shift m u v)

/-! ## A greedy loop with nothing behind it -/

/-- Iterate the first choice of `step` as long as there is one. -/
def loop (step : State α → List (State α)) : Nat → State α → State α
  | 0, st => st
  | n + 1, st =>
    match (step st).head? with
    | some st' => loop step n st'
    | none => st

/-- Every iteration reads something, so the loop's guard against empty iterations is never
    needed. -/
def Progress (step : State α → List (State α)) : Prop :=
  ∀ st st', st' ∈ step st → st'.rest.length < st.rest.length

theorem head?_starRun {step : State α → List (State α)} (hp : Progress step) :
    ∀ (n : Nat) (st : State α), (starRun true step n st).head? = some (loop step n st) := by
  intro n
  induction n with
  | zero => intro st; rfl
  | succ n ih =>
    intro st
    cases hs : step st with
    | nil => simp [starRun, loop, hs]
    | cons st' more =>
      have hlt := hp st st' (by rw [hs]; simp)
      simp only [starRun, loop, hs, if_true, List.head?_cons, List.flatMap_cons, if_pos hlt,
        List.append_assoc]
      rw [List.head?_append, ih st']
      rfl

end Regex

end LocateAnything
