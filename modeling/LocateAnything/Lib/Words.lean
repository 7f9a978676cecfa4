import Mathlib.Data.List.Basic
import Mathlib.Data.List.Infix
import Mathlib.Data.List.TakeDrop

/-!
# Words inside texts

Facts about lists that a scanner's proofs keep asking for: where a symbol that occurs once can
stand, where a symbol absent from a prefix can stand, and the first occurrence of a word
(`until?`).

They have a pattern in common. A text is known in two ways, as it was put together and as
something was found in it, and one has to conclude that the two decompositions agree. In
general they need not: a word can begin in one piece and end in another, or overlap a copy of
itself. What excludes it is always the word's first symbol, which stands nowhere else in the
word, or nowhere in a piece. So the lemmas are about words of the form `c :: w` and ask where
`c` can be.

`Clear w s` is the strongest of these notions: no copy of `w` starts in `s`, *whatever
follows*. It is closed under concatenation, which "`w` is no infix of `s`" is not.
-/

set_option autoImplicit false

namespace LocateAnything.Words

variable {α : Type}

/-- A symbol that is not in the prefix stands behind it. -/
theorem split_of_notMem {c : α} (p : List α) : ∀ {a b q : List α}, c ∉ p →
    a ++ c :: b = p ++ q → ∃ a', a = p ++ a' ∧ q = a' ++ c :: b := by
  induction p with
  | nil => intro a b q _ h; exact ⟨a, by simp, by simpa using h.symm⟩
  | cons d p ih =>
    intro a b q hc h
    cases a with
    | nil =>
      simp only [List.nil_append, List.cons_append, List.cons.injEq] at h
      exact absurd h.1 (by rintro rfl; simp at hc)
    | cons e a =>
      simp only [List.cons_append, List.cons.injEq] at h
      obtain ⟨a', rfl, hq⟩ := ih (fun hm => hc (List.mem_cons_of_mem d hm)) h.2
      exact ⟨a', by rw [h.1, List.cons_append], hq⟩

/-- A symbol that occurs once in a text splits it in one way. -/
theorem append_cons_unique {c : α} {a b p q : List α} (hp : c ∉ p) (hq : c ∉ q)
    (h : a ++ c :: b = p ++ c :: q) : a = p ∧ b = q := by
  obtain ⟨a', rfl, h'⟩ := split_of_notMem p hp h
  cases a' with
  | nil => simp at h'; exact ⟨by simp, h'.symm⟩
  | cons d a' =>
    simp only [List.cons_append, List.cons.injEq] at h'
    exact absurd (by rw [h'.2]; simp) hq

/-- Two texts that agree up to a symbol neither prefix holds agree on the prefixes. -/
theorem append_cons_inj {c : α} {p p' q q' : List α} (hp : c ∉ p) (hp' : c ∉ p')
    (h : p ++ c :: q = p' ++ c :: q') : p = p' ∧ q = q' := by
  obtain ⟨a, rfl, h'⟩ := split_of_notMem p' hp' h
  cases a with
  | nil => simp only [List.nil_append, List.cons.injEq, true_and] at h'; exact ⟨by simp, h'.symm⟩
  | cons d a =>
    simp only [List.cons_append, List.cons.injEq] at h'
    exact absurd (by rw [h'.1]; simp) hp

/-- Two texts that agree from a symbol on that neither rest holds agree in front of it. -/
theorem append_cons_inj_last {c : α} {p p' q q' : List α} (hq : c ∉ q) (hq' : c ∉ q')
    (h : p ++ c :: q = p' ++ c :: q') : p = p' ∧ q = q' := by
  have h' : q.reverse ++ c :: p.reverse = q'.reverse ++ c :: p'.reverse := by
    simpa using congrArg List.reverse h
  obtain ⟨hqq, hpp⟩ := append_cons_inj (by simpa using hq) (by simpa using hq') h'
  exact ⟨List.reverse_injective hpp, List.reverse_injective hqq⟩

/-- The last place of a symbol. -/
theorem exists_last {c : α} {s : List α} (h : c ∈ s) : ∃ p q, s = p ++ c :: q ∧ c ∉ q := by
  obtain ⟨p, q, hs, hp⟩ := List.eq_append_cons_of_mem (List.mem_reverse.mpr h)
  refine ⟨q.reverse, p.reverse, ?_, by simpa using hp⟩
  have := congrArg List.reverse hs
  simpa using this

/-! ## Texts no copy of a word starts in -/

/-- No copy of `w` starts in `s`, whatever follows `s`. -/
def Clear (w s : List α) : Prop := ∀ u a b, s ++ u = a ++ (w ++ b) → s <+: a

theorem Clear.nil (w : List α) : Clear w [] := fun _ _ _ _ => List.nil_prefix

/-- A copy that starts in the first text would start there with the second behind it, too. -/
theorem Clear.append {w s s' : List α} (h : Clear w s) (h' : Clear w s') : Clear w (s ++ s') := by
  intro u a b heq
  rw [List.append_assoc] at heq
  obtain ⟨a', rfl⟩ := h _ _ _ heq
  rw [List.append_assoc] at heq
  obtain ⟨a'', rfl⟩ := h' _ _ _ (List.append_cancel_left heq)
  exact ⟨a'', by rw [List.append_assoc]⟩

theorem Clear.flatMap {β : Type} {w : List α} {f : β → List α} {xs : List β}
    (h : ∀ x ∈ xs, Clear w (f x)) : Clear w (xs.flatMap f) := by
  induction xs with
  | nil => exact Clear.nil w
  | cons x xs ih =>
    rw [List.flatMap_cons]
    exact (h x (by simp)).append (ih fun y hy => h y (List.mem_cons_of_mem _ hy))

/-- A chunk that starts with the word's head, holds no other copy of it and goes on differently. -/
theorem clear_chunk {c : α} {w body : List α} (hb : c ∉ body) (hw : ∀ u, ¬ w <+: body ++ u) :
    Clear (c :: w) (c :: body) := by
  intro u a b heq
  cases a with
  | nil =>
    simp only [List.cons_append, List.nil_append, List.cons.injEq, true_and] at heq
    exact absurd ⟨b, heq.symm⟩ (hw u)
  | cons d a =>
    simp only [List.cons_append, List.cons.injEq] at heq
    obtain ⟨rfl, heq⟩ := heq
    obtain ⟨a', rfl, -⟩ := split_of_notMem (b := w ++ b) body hb heq.symm
    exact ⟨a', by simp⟩

/-- In front of a last copy of `w` there is none, so a proper prefix holds none. -/
theorem Clear.not_infix_of_cut {w s p c : List α} (h : Clear w s) (hp : p ++ c = s ++ w)
    (hc : c ≠ []) : ¬ w <:+: p := by
  rintro ⟨a, b, rfl⟩
  obtain ⟨a', rfl⟩ := h w a (b ++ c) (by rw [← hp]; simp)
  have := congrArg List.length hp
  have := List.length_pos_iff.mpr hc
  simp only [List.length_append] at *
  omega

/-! ## The first occurrence of a word -/

variable [DecidableEq α]

/-- Split `s` at the first occurrence of `w`: what stands in front of it, and behind it. -/
def until? (w : List α) : List α → Option (List α × List α)
  | [] => if w = [] then some ([], []) else none
  | c :: s =>
    if w.isPrefixOf (c :: s) then some ([], (c :: s).drop w.length)
    else (until? w s).map fun r => (c :: r.1, r.2)

theorem until?_some {w : List α} (s : List α) : ∀ {b r : List α},
    until? w s = some (b, r) → s = b ++ (w ++ r) := by
  induction s with
  | nil =>
    intro b r h
    simp only [until?] at h
    split at h
    · rename_i hw
      simp only [Option.some.injEq, Prod.mk.injEq] at h
      obtain ⟨rfl, rfl⟩ := h
      simp [hw]
    · exact absurd h (by simp)
  | cons c s ih =>
    intro b r h
    simp only [until?] at h
    split at h
    · rename_i hp
      simp only [Option.some.injEq, Prod.mk.injEq] at h
      obtain ⟨rfl, rfl⟩ := h
      obtain ⟨t, ht⟩ := List.isPrefixOf_iff_prefix.mp hp
      rw [← ht, List.drop_left, List.nil_append]
    · cases hu : until? w s with
      | none => rw [hu] at h; exact absurd h (by simp)
      | some x =>
        rw [hu] at h
        simp only [Option.map_some, Option.some.injEq, Prod.mk.injEq] at h
        obtain ⟨rfl, rfl⟩ := h
        rw [List.cons_append, ← ih hu]

/-- A word with no second copy of its head cannot be met again half-way through itself, so
    in front of its first occurrence it does not occur at all. -/
theorem until?_fresh {c : α} {w : List α} (s : List α) : ∀ {b r : List α},
    until? (c :: w) s = some (b, r) → ¬ (c :: w) <:+: b := by
  induction s with
  | nil => intro b r h; simp [until?] at h
  | cons d s ih =>
    intro b r h
    simp only [until?] at h
    split at h
    · simp only [Option.some.injEq, Prod.mk.injEq] at h
      obtain ⟨rfl, rfl⟩ := h
      simp
    · rename_i hp
      cases hu : until? (c :: w) s with
      | none => rw [hu] at h; exact absurd h (by simp)
      | some x =>
        obtain ⟨b', r'⟩ := x
        rw [hu] at h
        simp only [Option.map_some, Option.some.injEq, Prod.mk.injEq] at h
        obtain ⟨rfl, rfl⟩ := h
        intro hin
        rcases List.infix_cons_iff.mp hin with hpre | hin
        · refine hp (List.isPrefixOf_iff_prefix.mpr (hpre.trans ?_))
          rw [until?_some s hu]
          exact ⟨_, rfl⟩
        · exact ih hu hin

/-- A text that is put together around a word is split there, if the front holds no copy: the
    word itself cannot be met earlier, half in the front. -/
theorem until?_eq {c : α} {w : List α} (hw : c ∉ w) (b : List α) : ∀ {r : List α},
    ¬ (c :: w) <:+: b → until? (c :: w) (b ++ (c :: w ++ r)) = some (b, r) := by
  induction b with
  | nil =>
    intro r _
    rw [List.nil_append, List.cons_append, until?,
      if_pos (List.isPrefixOf_iff_prefix.mpr ⟨r, by simp⟩)]
    simp
  | cons d b ih =>
    intro r hb
    have hb' : ¬ (c :: w) <:+: b := fun h => hb (List.infix_cons_iff.mpr (Or.inr h))
    rw [List.cons_append, until?, if_neg, ih hb']
    · rfl
    · intro hp
      obtain ⟨t, ht⟩ := List.isPrefixOf_iff_prefix.mp hp
      simp only [List.cons_append, List.cons.injEq] at ht
      obtain ⟨rfl, ht⟩ := ht
      -- `w ++ t = b ++ c :: …` with `c ∉ w`: the occurrence lies inside `d :: b`.
      obtain ⟨b', hb'', -⟩ := split_of_notMem w hw (a := b) (b := w ++ r) (q := t) ht.symm
      exact hb (by rw [hb'']; exact ⟨[], b', by simp⟩)

theorem until?_isSome {c : α} {w : List α} (s : List α) :
    (until? (c :: w) s).isSome ↔ (c :: w) <:+: s := by
  induction s with
  | nil => simp [until?]
  | cons d s ih =>
    rw [until?, List.infix_cons_iff]
    split
    · rename_i hp
      simp only [Option.isSome_some, true_iff]
      exact Or.inl (List.isPrefixOf_iff_prefix.mp hp)
    · rename_i hp
      rw [Option.isSome_map, ih]
      constructor
      · exact Or.inr
      · rintro (h | h)
        · exact absurd (List.isPrefixOf_iff_prefix.mpr h) hp
        · exact h

/-! ## Splitting at a word -/

/-- The pieces between the copies of `w`, at most `n` copies. -/
def splitFuel (w : List α) : (n : Nat) → List α → List (List α)
  | 0, s => [s]
  | n + 1, s =>
    match until? w s with
    | none => [s]
    | some (a, r) => a :: splitFuel w n r

/-- `s.split(w)`. A copy of a non-empty word takes a symbol, so there are at most `s.length`. -/
def splitWord (w s : List α) : List (List α) := splitFuel w s.length s

theorem until?_eq_none {c : α} {w s : List α} (h : ¬ (c :: w) <:+: s) :
    until? (c :: w) s = none := by
  cases hu : until? (c :: w) s with
  | none => rfl
  | some r => exact absurd ((until?_isSome s).mp (by rw [hu]; rfl)) h

/-- By induction on the pieces; the length of the text pays for the copies. -/
theorem splitFuel_intercalate {c : α} {w : List α} (hw : c ∉ w) (xs : List (List α))
    (hne : xs ≠ []) (h : ∀ x ∈ xs, ¬ (c :: w) <:+: x) : ∀ n : Nat,
    (List.intercalate (c :: w) xs).length ≤ n →
    splitFuel (c :: w) n (List.intercalate (c :: w) xs) = xs := by
  induction xs with
  | nil => exact absurd rfl hne
  | cons x xs ih =>
    intro n hn
    cases xs with
    | nil =>
      rw [List.intercalate_singleton] at *
      cases n with
      | zero => rfl
      | succ n => rw [splitFuel, until?_eq_none (h x (by simp))]
    | cons y ys =>
      rw [List.intercalate_cons_cons, List.append_assoc] at *
      simp only [List.length_append, List.length_cons] at hn
      cases n with
      | zero => omega
      | succ n =>
        rw [splitFuel, until?_eq hw x (h x (by simp))]
        simp only
        rw [ih (by simp) (fun z hz => h z (List.mem_cons_of_mem _ hz)) n (by omega)]

/-- **Splitting undoes joining** at a word whose head does not come back in it. -/
theorem splitWord_intercalate {c : α} {w : List α} (hw : c ∉ w) {xs : List (List α)}
    (hne : xs ≠ []) (h : ∀ x ∈ xs, ¬ (c :: w) <:+: x) :
    splitWord (c :: w) (List.intercalate (c :: w) xs) = xs :=
  splitFuel_intercalate hw xs hne h _ (Nat.le_refl _)

theorem splitFuel_fresh {c : α} {w : List α} (n : Nat) : ∀ {s : List α}, s.length ≤ n →
    ∀ x ∈ splitFuel (c :: w) n s, ¬ (c :: w) <:+: x := by
  induction n with
  | zero =>
    intro s hs x hx
    rw [splitFuel, List.mem_singleton, List.eq_nil_of_length_eq_zero (Nat.le_zero.mp hs)] at hx
    subst hx
    simp
  | succ n ih =>
    intro s hs x hx
    rw [splitFuel] at hx
    cases hu : until? (c :: w) s with
    | none =>
      rw [hu, List.mem_singleton] at hx
      subst hx
      exact fun hin => by simpa [hu] using (until?_isSome x).mpr hin
    | some p =>
      obtain ⟨a, r⟩ := p
      rw [hu, List.mem_cons] at hx
      rcases hx with rfl | hx
      · exact until?_fresh s hu
      · refine ih ?_ x hx
        have := congrArg List.length (until?_some s hu)
        simp only [List.length_append, List.length_cons] at this
        omega

/-- No piece holds a copy of the word. -/
theorem splitWord_fresh {c : α} {w s x : List α} (h : x ∈ splitWord (c :: w) s) :
    ¬ (c :: w) <:+: x :=
  splitFuel_fresh s.length (Nat.le_refl _) x h

end LocateAnything.Words
