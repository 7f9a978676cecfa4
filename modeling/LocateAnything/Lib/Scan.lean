import Mathlib.Data.List.Basic
import Mathlib.Data.List.Pairwise

/-!
# Scanning a text with a recogniser

`finditer`-style scanning, away from any particular pattern language. A *recogniser* looks
at the front of a text and answers the token it reads there together with the number of
symbols that token takes; `scanFrom` walks the text, keeps every token it meets, and goes on
behind it.

Two facts carry everything downstream:

* `scan_induction` — a text is a *quiet* stretch followed by a token followed by a shorter
  text, or quiet altogether. Its three equations (`scanFrom_quiet`, `scanFrom_token`,
  `scanFrom_step`) say what the scan answers on each shape.
* `scanFrom_append` — at a **cut** (`Cut f u v`: no token that starts in `u` looks past it)
  the scan of `u ++ v` is the scan of `u` followed by the scan of `v`.
-/

set_option autoImplicit false

namespace LocateAnything.Scan

variable {α β : Type}

/-- A recogniser: the token at the front of the text, and how many symbols it takes. -/
abbrev Recogniser (α β : Type) := List α → Option (β × Nat)

/-- A token the scan found, with the half-open span `[start, stop)` it takes. -/
structure Found (β : Type) where
  start : Nat
  stop : Nat
  val : β
  deriving Repr, DecidableEq

/-- The same token in a text that has `d` more symbols in front. -/
def Found.shift (d : Nat) (m : Found β) : Found β := ⟨m.start + d, m.stop + d, m.val⟩

@[simp] theorem Found.shift_start (d : Nat) (m : Found β) : (m.shift d).start = m.start + d := rfl
@[simp] theorem Found.shift_stop (d : Nat) (m : Found β) : (m.shift d).stop = m.stop + d := rfl
@[simp] theorem Found.shift_val (d : Nat) (m : Found β) : (m.shift d).val = m.val := rfl

/-- Two half-open spans share a symbol. -/
def Found.overlaps {γ : Type} (a : Found β) (b : Found γ) : Bool :=
  decide (a.start < b.stop) && decide (b.start < a.stop)

section Overlap
variable {γ : Type} {a : Found β} {b : Found γ}

theorem Found.overlaps_iff : a.overlaps b = true ↔ a.start < b.stop ∧ b.start < a.stop := by
  unfold Found.overlaps
  rw [Bool.and_eq_true, decide_eq_true_eq, decide_eq_true_eq]

theorem Found.not_overlaps_iff : a.overlaps b = false ↔ a.stop ≤ b.start ∨ b.stop ≤ a.start := by
  rw [← Bool.not_eq_true, Found.overlaps_iff]
  omega

@[simp] theorem Found.overlaps_shift (d : Nat) (a : Found β) (b : Found γ) :
    (a.shift d).overlaps (b.shift d) = a.overlaps b := by
  simp [Found.overlaps]

theorem any_overlaps_eq_false {is : List (Found γ)}
    (h : ∀ i ∈ is, a.stop ≤ i.start ∨ i.stop ≤ a.start) :
    (is.any fun i => a.overlaps i) = false := by
  rw [List.any_eq_false]
  intro i hi
  rw [Found.not_overlaps_iff.mpr (h i hi)]
  exact Bool.false_ne_true

end Overlap

/-- Scan `s`, whose first symbol stands at `pos`, after skipping `skip` symbols that belong
    to the token found last. -/
def scanFrom (f : Recogniser α β) : (pos skip : Nat) → List α → List (Found β)
  | _, _, [] => []
  | pos, skip + 1, _ :: s => scanFrom f (pos + 1) skip s
  | pos, 0, c :: s =>
    match f (c :: s) with
    | some (b, n) => ⟨pos, pos + n, b⟩ :: scanFrom f (pos + 1) (n - 1) s
    | none => scanFrom f (pos + 1) 0 s

/-- Every token takes at least one symbol and at most the text it is read from. Without it a
    scan could find the same empty token for ever, or reach beyond the end. -/
def Proper (f : Recogniser α β) : Prop :=
  ∀ s b n, f s = some (b, n) → 1 ≤ n ∧ n ≤ s.length

/-- No token starts in `u` when `v` follows it. A token that starts in `u` may need some of
    `v` to be read, so what follows is part of the notion. -/
def Quiet (f : Recogniser α β) (u v : List α) : Prop :=
  ∀ x, x ≠ [] → x <:+ u → f (x ++ v) = none

/-- What the recogniser reads inside `u` does not depend on the `v` that follows. -/
def Cut (f : Recogniser α β) (u v : List α) : Prop :=
  ∀ x, x ≠ [] → x <:+ u → f (x ++ v) = f x

variable {f : Recogniser α β}

theorem Quiet.tail {c : α} {u v : List α} (h : Quiet f (c :: u) v) : Quiet f u v :=
  fun x hx hs => h x hx (hs.trans (List.suffix_cons c u))

theorem Cut.tail {c : α} {u v : List α} (h : Cut f (c :: u) v) : Cut f u v :=
  fun x hx hs => h x hx (hs.trans (List.suffix_cons c u))

/-! ## The equations of a scan -/

@[simp] theorem scanFrom_nil (pos skip : Nat) : scanFrom f pos skip [] = [] := by
  cases skip <;> rfl

theorem scanFrom_skip (s : List α) : ∀ {pos skip : Nat}, skip ≤ s.length →
    scanFrom f pos skip s = scanFrom f (pos + skip) 0 (s.drop skip) := by
  induction s with
  | nil => intro pos skip _; simp
  | cons c s ih =>
    intro pos skip h
    cases skip with
    | zero => simp
    | succ k =>
      simp only [List.length_cons, Nat.add_le_add_iff_right] at h
      rw [scanFrom, ih h, List.drop_succ_cons, Nat.add_right_comm, Nat.add_assoc]

theorem scanFrom_quiet (u : List α) : ∀ {v : List α} {pos : Nat}, Quiet f u v →
    scanFrom f pos 0 (u ++ v) = scanFrom f (pos + u.length) 0 v := by
  induction u with
  | nil => intro v pos _; simp
  | cons c u ih =>
    intro v pos h
    have hnone : f (c :: (u ++ v)) = none := h (c :: u) (by simp) (List.suffix_refl _)
    rw [List.cons_append, scanFrom, hnone]
    simp only
    rw [ih h.tail, List.length_cons, Nat.add_right_comm, Nat.add_assoc]

/-- A token is found, and the scan goes on right behind it. -/
theorem scanFrom_token {w v : List α} {b : β} {pos : Nat} (hw : w ≠ [])
    (h : f (w ++ v) = some (b, w.length)) :
    scanFrom f pos 0 (w ++ v)
      = ⟨pos, pos + w.length, b⟩ :: scanFrom f (pos + w.length) 0 v := by
  cases w with
  | nil => exact absurd rfl hw
  | cons c w =>
    rw [List.cons_append] at h ⊢
    rw [scanFrom, h]
    simp only [List.length_cons, Nat.add_sub_cancel]
    rw [scanFrom_skip _ (by simp), List.drop_left, Nat.add_right_comm, Nat.add_assoc]

/-- Quiet stretch, then token: the shape `scan_induction` produces. -/
theorem scanFrom_step {u w v : List α} {b : β} {pos : Nat} (hu : Quiet f u (w ++ v))
    (hw : w ≠ []) (h : f (w ++ v) = some (b, w.length)) :
    scanFrom f pos 0 (u ++ (w ++ v))
      = ⟨pos + u.length, pos + u.length + w.length, b⟩
        :: scanFrom f (pos + u.length + w.length) 0 v := by
  rw [scanFrom_quiet u hu, scanFrom_token hw h]

theorem scanFrom_shift (d : Nat) (s : List α) : ∀ {pos skip : Nat},
    scanFrom f (pos + d) skip s = (scanFrom f pos skip s).map (Found.shift d) := by
  induction s with
  | nil => intro pos skip; simp
  | cons c s ih =>
    intro pos skip
    cases skip with
    | succ k => rw [scanFrom, scanFrom, Nat.add_right_comm, ih]
    | zero =>
      rw [scanFrom, scanFrom]
      cases f (c :: s) with
      | none => simp only; rw [Nat.add_right_comm, ih]
      | some r =>
        simp only [List.map_cons]
        rw [Nat.add_right_comm pos d 1, ih]
        simp [Found.shift, Nat.add_right_comm]

theorem scanFrom_eq_shift (s : List α) (d : Nat) :
    scanFrom f d 0 s = (scanFrom f 0 0 s).map (Found.shift d) := by
  simpa using @scanFrom_shift α β f d s 0 0

/-- What is found does not depend on where the text stands. -/
theorem map_val_scanFrom (s : List α) (d : Nat) :
    (scanFrom f d 0 s).map Found.val = (scanFrom f 0 0 s).map Found.val := by
  rw [scanFrom_eq_shift, List.map_map]
  rfl

/-- **At a cut a scan falls into two.** The tokens on either side are those of the side alone,
    moved to where the side stands. -/
theorem scanFrom_append (hp : Proper f) (u : List α) : ∀ {v : List α} {pos skip : Nat},
    Cut f u v → skip ≤ u.length →
    scanFrom f pos skip (u ++ v) = scanFrom f pos skip u ++ scanFrom f (pos + u.length) 0 v := by
  induction u with
  | nil => intro v pos skip _ h; simp at h; subst h; simp
  | cons c u ih =>
    intro v pos skip hc h
    have hlen : pos + (c :: u).length = pos + 1 + u.length := by
      simp [Nat.add_assoc, Nat.add_comm 1]
    cases skip with
    | succ k =>
      simp only [List.length_cons, Nat.add_le_add_iff_right] at h
      rw [List.cons_append, scanFrom, scanFrom, ih hc.tail h, hlen]
    | zero =>
      -- across the cut nothing else is read than without what is behind it
      have heq : f (c :: (u ++ v)) = f (c :: u) := hc (c :: u) (by simp) (List.suffix_refl _)
      rw [List.cons_append, scanFrom, scanFrom, heq, hlen]
      cases hf : f (c :: u) with
      | none => simp only; rw [ih hc.tail (Nat.zero_le _)]
      | some r =>
        obtain ⟨b, n⟩ := r
        have hn := hp _ _ _ hf
        simp only [List.length_cons] at hn
        simp only [List.cons_append]
        rw [ih hc.tail (by omega)]

/-- A quiet text is quiet whatever cut it stands at. -/
theorem Quiet.cut {u v : List α} (h : Quiet f u v) (h' : Quiet f u []) : Cut f u v := by
  intro x hx hs
  rw [h x hx hs]
  have := h' x hx hs
  rw [List.append_nil] at this
  exact this.symm

/-! ## Where the tokens are -/

theorem scanFrom_bounds (hp : Proper f) (s : List α) : ∀ {pos skip : Nat} {m : Found β},
    m ∈ scanFrom f pos skip s →
      pos + skip ≤ m.start ∧ m.start < m.stop ∧ m.stop ≤ pos + s.length := by
  induction s with
  | nil => intro pos skip m h; simp at h
  | cons c s ih =>
    intro pos skip m h
    cases skip with
    | succ k =>
      rw [scanFrom] at h
      have := ih h
      simp only [List.length_cons]
      omega
    | zero =>
      rw [scanFrom] at h
      cases hf : f (c :: s) with
      | none =>
        rw [hf] at h
        have := ih h
        simp only [List.length_cons]
        omega
      | some r =>
        obtain ⟨b, n⟩ := r
        rw [hf] at h
        have hn := hp _ _ _ hf
        simp only [List.length_cons] at hn ⊢
        rcases List.mem_cons.mp h with rfl | h
        · simp only; omega
        · have := ih h; omega

/-- The tokens stand one behind the other. -/
theorem scanFrom_pairwise (hp : Proper f) (s : List α) : ∀ {pos skip : Nat},
    (scanFrom f pos skip s).Pairwise fun a b => a.stop ≤ b.start := by
  induction s with
  | nil => intro pos skip; simp
  | cons c s ih =>
    intro pos skip
    cases skip with
    | succ k => rw [scanFrom]; exact ih
    | zero =>
      rw [scanFrom]
      cases hf : f (c :: s) with
      | none => exact ih
      | some r =>
        obtain ⟨b, n⟩ := r
        have hn := hp _ _ _ hf
        refine List.pairwise_cons.mpr ⟨fun m hm => ?_, ih⟩
        have := (scanFrom_bounds hp s hm).1
        simp only
        omega

theorem eq_of_overlaps (hp : Proper f) {s : List α} {pos skip : Nat} {a b : Found β}
    (ha : a ∈ scanFrom f pos skip s) (hb : b ∈ scanFrom f pos skip s)
    (h : a.overlaps b = true) : a = b := by
  by_contra hne
  have : Std.Symm fun a b : Found β => a.stop ≤ b.start ∨ b.stop ≤ a.start := ⟨fun _ _ => Or.symm⟩
  have hpair : (scanFrom f pos skip s).Pairwise
      fun a b => a.stop ≤ b.start ∨ b.stop ≤ a.start :=
    (scanFrom_pairwise hp s).imp Or.inl
  have hno := Found.not_overlaps_iff.mpr (hpair.forall ha hb hne)
  exact absurd (hno.symm.trans h) (by simp)

theorem scanFrom_reads (s : List α) : ∀ {pos skip : Nat} {m : Found β},
    m ∈ scanFrom f pos skip s →
      ∃ k, m.start = pos + k ∧ k < s.length ∧ f (s.drop k) = some (m.val, m.stop - m.start) := by
  induction s with
  | nil => intro pos skip m h; simp at h
  | cons c s ih =>
    intro pos skip m h
    have lift : ∀ {k' : Nat}, m ∈ scanFrom f (pos + 1) k' s →
        ∃ k, m.start = pos + k ∧ k < (c :: s).length ∧
          f ((c :: s).drop k) = some (m.val, m.stop - m.start) := by
      intro k' hm
      obtain ⟨k, hk, hlt, hr⟩ := ih hm
      exact ⟨k + 1, by omega, by simpa using hlt, by simpa using hr⟩
    cases skip with
    | succ k => rw [scanFrom] at h; exact lift h
    | zero =>
      rw [scanFrom] at h
      cases hf : f (c :: s) with
      | none => rw [hf] at h; exact lift h
      | some r =>
        obtain ⟨b, n⟩ := r
        rw [hf] at h
        rcases List.mem_cons.mp h with rfl | h
        · exact ⟨0, by simp, by simp, by simp [hf]⟩
        · exact lift h

/-! ## The induction a scan gives -/

/-- Either nothing is read anywhere in `s`, or a quiet stretch, a token and the rest. -/
theorem quiet_or_token (hp : Proper f) (s : List α) :
    Quiet f s [] ∨ ∃ u w v b, s = u ++ (w ++ v) ∧ Quiet f u (w ++ v) ∧ w ≠ [] ∧
      f (w ++ v) = some (b, w.length) := by
  induction s with
  | nil => exact Or.inl fun x hx hs => absurd (List.suffix_nil.mp hs) hx
  | cons c s ih =>
    cases hf : f (c :: s) with
    | some r =>
      obtain ⟨b, n⟩ := r
      have hn := hp _ _ _ hf
      refine Or.inr ⟨[], (c :: s).take n, (c :: s).drop n, b, by simp, ?_, ?_, ?_⟩
      · exact fun x hx hs => absurd (List.suffix_nil.mp hs) hx
      · intro h0
        have : ((c :: s).take n).length = 0 := by rw [h0]; rfl
        rw [List.length_take] at this
        simp only [List.length_cons] at this hn
        omega
      · rw [List.take_append_drop, hf, List.length_take, Nat.min_eq_left hn.2]
    | none =>
      have cons_quiet : ∀ {u v : List α}, s = u ++ v → Quiet f u v → Quiet f (c :: u) v := by
        intro u v hs hq x hx hsuf
        rcases List.suffix_cons_iff.mp hsuf with rfl | hsuf
        · rw [List.cons_append, ← hs]; exact hf
        · exact hq x hx hsuf
      rcases ih with hq | ⟨u, w, v, b, rfl, hq, hw, hr⟩
      · exact Or.inl (cons_quiet (by simp) hq)
      · exact Or.inr ⟨c :: u, w, v, b, by simp, cons_quiet rfl hq, hw, hr⟩

/-- **Induction along a scan.** A property of texts holds of every text when it holds of the
    quiet ones and of a quiet stretch and a token in front of any text it holds of. -/
theorem scan_induction (hp : Proper f) {motive : List α → Prop}
    (stop : ∀ s, Quiet f s [] → motive s)
    (step : ∀ u w v b, Quiet f u (w ++ v) → w ≠ [] → f (w ++ v) = some (b, w.length) →
      motive v → motive (u ++ (w ++ v))) :
    ∀ s, motive s := by
  intro s
  induction hn : s.length using Nat.strongRecOn generalizing s with
  | ind n ih =>
    rcases quiet_or_token hp s with hq | ⟨u, w, v, b, rfl, hq, hw, hr⟩
    · exact stop s hq
    · refine step u w v b hq hw hr (ih v.length ?_ v rfl)
      have := List.length_pos_iff.mpr hw
      simp only [List.length_append] at hn
      omega

theorem scanFrom_of_quiet {s : List α} {pos : Nat} (h : Quiet f s []) :
    scanFrom f pos 0 s = [] := by
  have := @scanFrom_quiet α β f s [] pos h
  simpa using this

end LocateAnything.Scan
