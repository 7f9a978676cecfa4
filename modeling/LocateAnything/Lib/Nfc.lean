import Mathlib.Data.List.Basic

/-!
# Canonical composition

Normalization Form C over any alphabet: decompose, put the marks of each starter in canonical
order, compose. The tables are data; the three steps are the standard's.

Normalisation is not a homomorphism — a mark at the front of a text can reach back into what
stands before it. The lemmas are about the places where it is one:

* `nfc_append_border` — in front of a **border**, a symbol that decomposes to itself, is a starter
  and composes with nothing before it;
* `nfc_cons_of_inert` — behind a border that composes with nothing after it either;
* `nfc_cons_of_head?_ne` — behind a border that composes with a single mark, unless that mark is
  next; if it is, the border is gone (`nfc_cons_of_head?_eq`).
-/

set_option autoImplicit false

namespace LocateAnything.Nfc

variable {α : Type}

structure Tables (α : Type) where
  /-- The canonical combining class; a symbol of class 0 is a *starter*. -/
  ccc : α → Nat
  /-- The full canonical decomposition. -/
  decomp : α → List α
  /-- The primary composite of a pair. -/
  primary : α → α → Option α

namespace Tables

variable (t : Tables α)

/-- Put `c` in front of a text in canonical order: it moves back over the marks of a lower
    class. Marks of one class keep their order, so the insertion is stable. -/
def place (c : α) : List α → List α
  | [] => [c]
  | d :: s => if 0 < t.ccc d ∧ t.ccc d < t.ccc c then d :: place c s else c :: d :: s

/-- The canonical ordering. -/
def reorder (s : List α) : List α := s.foldr t.place []

/-- Some symbol of `p`, which stands between a starter and `c`, keeps `c` from composing. -/
def blocked (p : List α) (c : α) : Bool :=
  p.any fun b => t.ccc b == 0 || decide (t.ccc c ≤ t.ccc b)

/-- Compose, with `l` the last starter and `p` the marks behind it that did not compose. A
    mark that composes is gone from the text, and the composite takes the starter's place. -/
def composeFrom (l : α) (p : List α) : List α → List α
  | [] => l :: p
  | c :: s =>
    match if t.blocked p c then none else t.primary l c with
    | some x => composeFrom x p s
    | none => if t.ccc c = 0 then l :: (p ++ composeFrom c [] s) else composeFrom l (p ++ [c]) s

/-- Compose from the beginning: marks in front of the first starter stay. -/
def compose : List α → List α
  | [] => []
  | c :: s => if t.ccc c = 0 then t.composeFrom c [] s else c :: compose s

/-- Normalization Form C. -/
def nfc (s : List α) : List α := t.compose (t.reorder (s.flatMap t.decomp))

/-- A starter that is its own decomposition and composes with nothing in front of it. All of
    ASCII is like that in the standard's tables. -/
structure Border (c : α) : Prop where
  decomp : t.decomp c = [c]
  starter : t.ccc c = 0
  not_second : ∀ l, t.primary l c = none

variable {t} {c : α}

/-! ## Ordering at a starter -/

theorem place_starter (h : t.ccc c = 0) (s : List α) : t.place c s = c :: s := by
  cases s with
  | nil => rfl
  | cons d s => rw [place, if_neg (by omega)]

theorem place_append_starter (h : t.ccc c = 0) (x : α) (u v : List α) :
    t.place x (u ++ c :: v) = t.place x u ++ c :: v := by
  induction u with
  | nil => simp [place, h]
  | cons d u ih =>
    rw [List.cons_append, place, place, ih]
    split <;> rfl

theorem reorder_append_starter (h : t.ccc c = 0) (u v : List α) :
    t.reorder (u ++ c :: v) = t.reorder u ++ c :: t.reorder v := by
  induction u with
  | nil => exact place_starter h _
  | cons d u ih =>
    have hcons : ∀ s, t.reorder (d :: s) = t.place d (t.reorder s) := fun s => rfl
    rw [List.cons_append, hcons, ih, place_append_starter h, hcons]

/-! ## Composing at a border -/

theorem composeFrom_append_border (h : t.Border c) (u : List α) : ∀ (l : α) (p v : List α),
    t.composeFrom l p (u ++ c :: v) = t.composeFrom l p u ++ t.composeFrom c [] v := by
  induction u with
  | nil =>
    intro l p v
    have hnone : (if t.blocked p c then none else t.primary l c) = none := by
      rw [h.not_second]; simp
    simp only [List.nil_append, composeFrom, hnone, h.starter, if_true, List.cons_append]
  | cons d u ih =>
    intro l p v
    rw [List.cons_append, composeFrom, composeFrom]
    split
    · exact ih _ _ _
    · split
      · rw [ih, List.cons_append, List.append_assoc]
      · exact ih _ _ _

theorem compose_append_border (h : t.Border c) (u v : List α) :
    t.compose (u ++ c :: v) = t.compose u ++ t.compose (c :: v) := by
  have hc : t.compose (c :: v) = t.composeFrom c [] v := by rw [compose, if_pos h.starter]
  rw [hc]
  induction u with
  | nil => exact hc
  | cons d u ih =>
    rw [List.cons_append, compose, compose]
    split
    · exact composeFrom_append_border h u d [] v
    · rw [ih, List.cons_append]

/-- **In front of a border a text is normalised piece by piece.** -/
theorem nfc_append_border (h : t.Border c) (u v : List α) :
    t.nfc (u ++ c :: v) = t.nfc u ++ t.nfc (c :: v) := by
  have hstart : ∀ s, t.reorder ((c :: s).flatMap t.decomp)
      = c :: t.reorder (s.flatMap t.decomp) := by
    intro s
    rw [List.flatMap_cons, h.decomp]
    exact reorder_append_starter h.starter [] _
  have hmid : t.reorder ((u ++ c :: v).flatMap t.decomp)
      = t.reorder (u.flatMap t.decomp) ++ c :: t.reorder (v.flatMap t.decomp) := by
    rw [List.flatMap_append, List.flatMap_cons, h.decomp]
    exact reorder_append_starter h.starter _ _
  rw [nfc, nfc, nfc, hmid, hstart, compose_append_border h]

theorem nfc_cons_border (h : t.Border c) (s : List α) :
    t.nfc (c :: s) = t.composeFrom c [] (t.reorder (s.flatMap t.decomp)) := by
  have hstart : t.reorder ((c :: s).flatMap t.decomp)
      = c :: t.reorder (s.flatMap t.decomp) := by
    rw [List.flatMap_cons, h.decomp]
    exact reorder_append_starter h.starter [] _
  rw [nfc, hstart, compose, if_pos h.starter]

@[simp] theorem nfc_nil : t.nfc [] = [] := rfl

theorem nfc_borders (s : List α) (h : ∀ c ∈ s, t.Border c) : t.nfc s = s := by
  induction s with
  | nil => rfl
  | cons c s ih =>
    have hone : t.nfc [c] = [c] := by rw [nfc_cons_border (h c (by simp))]; rfl
    have hs := ih fun d hd => h d (List.mem_cons_of_mem _ hd)
    cases s with
    | nil => exact hone
    | cons d s =>
      have := nfc_append_border (h d (by simp)) [c] s
      rw [List.singleton_append] at this
      rw [this, hone, hs, List.singleton_append]

/-! ## Behind a border -/

/-- A starter that takes none of the marks behind it leaves them as they were. -/
theorem composeFrom_of_none (v : List α) : ∀ p : List α,
    (∀ q d, p <+: q → (if t.blocked q d then none else t.primary c d) = none) →
    t.composeFrom c p v = c :: (p ++ t.compose v) := by
  induction v with
  | nil => intro p _; simp [composeFrom, compose]
  | cons d v ih =>
    intro p h
    rw [composeFrom, h p d (List.prefix_refl _), compose]
    simp only
    split
    · rfl
    · rw [ih (p ++ [d]) fun q e hq => h q e ((List.prefix_append _ _).trans hq),
        List.append_assoc, List.singleton_append]

/-- A border that composes with nothing behind it either. -/
theorem nfc_cons_of_inert (h : t.Border c) (hc : ∀ d, t.primary c d = none) (s : List α) :
    t.nfc (c :: s) = c :: t.nfc s := by
  rw [nfc_cons_border h, composeFrom_of_none _ [] fun q d _ => by rw [hc]; simp]
  rfl

/-- What a starter becomes is itself or a composite. -/
theorem head?_composeFrom (v : List α) : ∀ (l : α) (p : List α),
    ∃ y, (t.composeFrom l p v).head? = some y ∧ (y = l ∨ ∃ a b, t.primary a b = some y) := by
  induction v with
  | nil => intro l p; exact ⟨l, rfl, Or.inl rfl⟩
  | cons d v ih =>
    intro l p
    rw [composeFrom]
    split
    · rename_i x hx
      obtain ⟨y, hy, hor⟩ := ih x p
      refine ⟨y, hy, Or.inr ?_⟩
      rcases hor with rfl | hor
      · split at hx
        · exact absurd hx (by simp)
        · exact ⟨l, d, hx⟩
      · exact hor
    · split
      · exact ⟨l, rfl, Or.inl rfl⟩
      · exact ih _ _

variable {m : α}

/-- A mark of a text in normal form is at its front exactly when it was at the front of the
    decomposed text. -/
theorem head?_compose_iff (hm : t.ccc m ≠ 0) (hcomp : ∀ a b, t.primary a b ≠ some m)
    (w : List α) : (t.compose w).head? = some m ↔ w.head? = some m := by
  cases w with
  | nil => simp [compose]
  | cons d w =>
    rw [compose]
    split
    · rename_i hd
      obtain ⟨y, hy, hor⟩ := t.head?_composeFrom w d []
      rw [hy, List.head?_cons, Option.some.injEq, Option.some.injEq]
      constructor
      · rintro rfl
        rcases hor with h | ⟨a, b, hab⟩
        · rw [h] at hm; exact absurd hd hm
        · exact absurd hab (hcomp a b)
      · rintro rfl
        exact absurd hd hm
    · simp

/-- **Behind a border that composes with one mark only**, of the lowest class: a text in normal
    form stays as it is unless it begins with that mark. -/
theorem nfc_cons_of_head?_ne (h : t.Border c) (hc : ∀ d, d ≠ m → t.primary c d = none)
    (hm : t.ccc m = 1) (hcomp : ∀ a b, t.primary a b ≠ some m) {s : List α}
    (hs : t.nfc s = s) (hne : s.head? ≠ some m) : t.nfc (c :: s) = c :: s := by
  have hm0 : t.ccc m ≠ 0 := by omega
  have hhead : (t.reorder (s.flatMap t.decomp)).head? ≠ some m := by
    intro hw
    rw [nfc] at hs
    rw [← hs] at hne
    exact hne ((head?_compose_iff hm0 hcomp _).mpr hw)
  have hgoal : t.composeFrom c [] (t.reorder (s.flatMap t.decomp)) = c :: t.nfc s := by
    rw [nfc]
    cases hw : t.reorder (s.flatMap t.decomp) with
    | nil => rfl
    | cons d v =>
      rw [hw] at hhead
      have hd : d ≠ m := by rintro rfl; exact hhead rfl
      have hnone : (if t.blocked [] d then none else t.primary c d) = none := by
        rw [hc d hd]; simp
      rw [composeFrom, hnone, compose]
      simp only
      split
      · rfl
      · -- Behind any mark, `m` is blocked: its class is the lowest.
        rename_i hd0
        rw [List.nil_append, composeFrom_of_none v [d]]
        · rfl
        · intro q e hq
          by_cases he : e = m
          · subst he
            have hblocked : t.blocked q e = true := by
              rw [blocked, List.any_eq_true]
              refine ⟨d, hq.subset (by simp), ?_⟩
              simp only [Bool.or_eq_true, decide_eq_true_eq]
              omega
            rw [hblocked]
            rfl
          · rw [hc e he]; simp
  rw [nfc_cons_border h, hgoal, hs]

/-- If it does, the border composes with it and is gone. -/
theorem nfc_cons_of_head?_eq (h : t.Border c) {x : α} (hx : t.primary c m = some x)
    (hm : t.ccc m ≠ 0) (hcomp : ∀ a b, t.primary a b ≠ some m)
    (hc : ∀ a b, t.primary a b ≠ some c) {s : List α} (hs : t.nfc s = s)
    (hhead : s.head? = some m) : ∃ y v, t.nfc (c :: s) = y :: v ∧ y ≠ c := by
  have hw : (t.reorder (s.flatMap t.decomp)).head? = some m := by
    rw [nfc] at hs
    rw [← hs] at hhead
    exact (head?_compose_iff hm hcomp _).mp hhead
  rw [nfc_cons_border h]
  cases hv : t.reorder (s.flatMap t.decomp) with
  | nil => rw [hv] at hw; exact absurd hw (by simp)
  | cons d v =>
    rw [hv, List.head?_cons, Option.some.injEq] at hw
    subst hw
    rw [composeFrom, show (if t.blocked [] d then none else t.primary c d) = some x from hx]
    simp only
    obtain ⟨y, hy, hor⟩ := t.head?_composeFrom v x []
    obtain ⟨v', hv'⟩ := List.head?_eq_some_iff.mp hy
    refine ⟨y, v', hv', ?_⟩
    rintro rfl
    rcases hor with rfl | ⟨a, b, hab⟩
    · exact hc _ d hx
    · exact hc a b hab

end Tables

end LocateAnything.Nfc
