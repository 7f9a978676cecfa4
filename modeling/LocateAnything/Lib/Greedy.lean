import Mathlib.Data.List.Induction
import Mathlib.Data.List.Sort

/-!
# Greedy suppression

From a list, the elements with the highest scores that do not clash: it is sorted by falling
score, and an element is kept unless it clashes with one kept before it. Whatever the scores
and the clashes, the result is maximal (`exists_kept`), a second pass changes nothing
(`suppress_suppress`), and parts of the list between which nothing clashes are treated
independently (`filter_suppress`).

Nothing is asked of the clash, not even that it is symmetric: a pair is compared in one
direction only, the later element against the one that is kept. That is why the statements
have it in that direction. Of the scores it is asked that they are linearly ordered; ties keep
the order of the list, since the sort is stable, and for the independence of parts this is
essential: an unstable sort of the whole might order a part otherwise than a sort of the part.
-/

set_option autoImplicit false

namespace LocateAnything.Greedy

variable {α : Type}

/-! ## Keeping what does not clash -/

section Select
variable (clash : α → α → Prop) [DecidableRel clash]

/-- Keep an element unless it clashes with one that is kept. -/
def step (keep : List α) (b : α) : List α := if ∃ k ∈ keep, clash b k then keep else keep ++ [b]

/-- One pass over a list, in its order. -/
def select (l : List α) : List α := l.foldl (step clash) []

@[simp] theorem select_nil : select clash [] = [] := rfl

theorem select_concat (l : List α) (b : α) :
    select clash (l ++ [b]) = step clash (select clash l) b := by
  rw [select, List.foldl_append]
  rfl

theorem select_concat_of_clash {l : List α} {b : α} (h : ∃ k ∈ select clash l, clash b k) :
    select clash (l ++ [b]) = select clash l := by
  rw [select_concat, step, if_pos h]

theorem select_concat_of_not_clash {l : List α} {b : α}
    (h : ¬ ∃ k ∈ select clash l, clash b k) :
    select clash (l ++ [b]) = select clash l ++ [b] := by
  rw [select_concat, step, if_neg h]

theorem select_sublist (l : List α) : (select clash l).Sublist l := by
  induction l using List.reverseRecOn with
  | nil => exact List.Sublist.refl _
  | append_singleton l b ih =>
    by_cases h : ∃ k ∈ select clash l, clash b k
    · rw [select_concat_of_clash clash h]
      exact ih.trans (List.sublist_append_left l [b])
    · rw [select_concat_of_not_clash clash h]
      exact ih.append (List.Sublist.refl [b])

theorem pairwise_select (l : List α) : (select clash l).Pairwise fun k b => ¬ clash b k := by
  induction l using List.reverseRecOn with
  | nil => exact List.Pairwise.nil
  | append_singleton l b ih =>
    by_cases h : ∃ k ∈ select clash l, clash b k
    · rwa [select_concat_of_clash clash h]
    · rw [select_concat_of_not_clash clash h, List.pairwise_append]
      refine ⟨ih, List.pairwise_singleton _ b, fun k hk x hx hc => h ⟨k, hk, ?_⟩⟩
      rwa [List.mem_singleton.mp hx] at hc

/-- Where nothing clashes all is kept. -/
theorem select_eq_self {l : List α} (h : l.Pairwise fun k b => ¬ clash b k) :
    select clash l = l := by
  induction l using List.reverseRecOn with
  | nil => rfl
  | append_singleton l b ih =>
    rw [List.pairwise_append] at h
    obtain ⟨hl, -, hb⟩ := h
    have hkeep : ¬ ∃ k ∈ select clash l, clash b k := by
      rintro ⟨k, hk, hc⟩
      rw [ih hl] at hk
      exact hb k hk b (List.mem_singleton_self b) hc
    rw [select_concat_of_not_clash clash hkeep, ih hl]

/-- What is not kept clashes with something that is, and that stands before it. The relation
    `r` is any that holds along the list; for a sorted one it is the order of the scores. -/
theorem exists_removed {r : α → α → Prop} {l : List α} (hl : l.Pairwise r) :
    ∃ removed, (select clash l ++ removed).Perm l ∧
      ∀ d ∈ removed, ∃ k ∈ select clash l, clash d k ∧ r k d := by
  induction l using List.reverseRecOn with
  | nil => exact ⟨[], .refl _, fun d hd => absurd hd List.not_mem_nil⟩
  | append_singleton l b ih =>
    obtain ⟨hl, -, hb⟩ := List.pairwise_append.mp hl
    obtain ⟨removed, hperm, hremoved⟩ := ih hl
    by_cases h : ∃ k ∈ select clash l, clash b k
    · rw [select_concat_of_clash clash h]
      refine ⟨removed ++ [b], ?_, fun d hd => ?_⟩
      · rw [← List.append_assoc]
        exact hperm.append_right [b]
      · rcases List.mem_append.mp hd with hd | hd
        · exact hremoved d hd
        · obtain rfl := List.mem_singleton.mp hd
          obtain ⟨k, hk, hc⟩ := h
          exact ⟨k, hk, hc, hb k ((select_sublist clash l).subset hk) d hd⟩
    · rw [select_concat_of_not_clash clash h]
      refine ⟨removed, ?_, fun d hd => ?_⟩
      · have hswap : (select clash l ++ [b] ++ removed).Perm (select clash l ++ removed ++ [b]) := by
          rw [List.append_assoc, List.append_assoc]
          exact (List.perm_append_comm).append_left _
        exact hswap.trans (hperm.append_right [b])
      · obtain ⟨k, hk, hc⟩ := hremoved d hd
        exact ⟨k, List.mem_append_left [b] hk, hc⟩

/-- Parts of the list between which nothing clashes do not notice each other. -/
theorem filter_select {p : α → Bool} (hp : ∀ b k, clash b k → p b = p k) (l : List α) :
    (select clash l).filter p = select clash (l.filter p) := by
  induction l using List.reverseRecOn with
  | nil => rfl
  | append_singleton l b ih =>
    rw [List.filter_append]
    cases hb : p b with
    | false =>
      rw [List.filter_singleton, hb]
      by_cases h : ∃ k ∈ select clash l, clash b k
      · rw [select_concat_of_clash clash h, ih]
        simp
      · rw [select_concat_of_not_clash clash h, List.filter_append, ih, List.filter_singleton, hb]
        simp
    | true =>
      have hiff : (∃ k ∈ select clash l, clash b k) ↔
          ∃ k ∈ select clash (l.filter p), clash b k := by
        rw [← ih]
        constructor
        · rintro ⟨k, hk, hc⟩
          exact ⟨k, List.mem_filter.mpr ⟨hk, (hp b k hc).symm.trans hb⟩, hc⟩
        · rintro ⟨k, hk, hc⟩
          exact ⟨k, (List.mem_filter.mp hk).1, hc⟩
      rw [List.filter_singleton, hb]
      by_cases h : ∃ k ∈ select clash l, clash b k
      · rw [select_concat_of_clash clash h, ih]
        exact (select_concat_of_clash clash (hiff.mp h)).symm
      · rw [select_concat_of_not_clash clash h, List.filter_append, ih, List.filter_singleton, hb]
        exact (select_concat_of_not_clash clash (fun h' => h (hiff.mpr h'))).symm

end Select

/-! ## Sorting by a score -/

section Sorting
variable {r : α → α → Prop} [DecidableRel r]

theorem orderedInsert_of_forall_rel {a : α} {l : List α} (h : ∀ b ∈ l, r a b) :
    l.orderedInsert r a = a :: l := by
  cases l with
  | nil => rfl
  | cons b l => exact List.orderedInsert_cons_of_le r l (h b List.mem_cons_self)

theorem filter_orderedInsert [IsTrans α r] (p : α → Bool) (a : α) {l : List α}
    (hl : l.Pairwise r) :
    (l.orderedInsert r a).filter p =
      if p a then (l.filter p).orderedInsert r a else l.filter p := by
  induction l with
  | nil => cases h : p a <;> simp [h]
  | cons b l ih =>
    obtain ⟨hb, hl⟩ := List.pairwise_cons.mp hl
    by_cases hab : r a b
    · have hall : ∀ x ∈ (b :: l).filter p, r a x := by
        intro x hx
        rcases List.mem_cons.mp (List.mem_filter.mp hx).1 with rfl | hx
        · exact hab
        · exact Trans.trans hab (hb x hx)
      rw [List.orderedInsert_cons_of_le r l hab, orderedInsert_of_forall_rel hall,
        List.filter_cons]
    · rw [List.orderedInsert_of_not_le r l hab, List.filter_cons, List.filter_cons, ih hl]
      cases p a <;> cases p b <;> simp [hab]

/-- A stable sort sorts every part of a list as if it were alone. -/
theorem filter_insertionSort [Std.Total r] [IsTrans α r] (p : α → Bool) (l : List α) :
    (l.insertionSort r).filter p = (l.filter p).insertionSort r := by
  induction l with
  | nil => rfl
  | cons a l ih =>
    rw [List.insertionSort_cons, filter_orderedInsert p a (List.pairwise_insertionSort r l), ih,
      List.filter_cons]
    cases p a <;> rfl

end Sorting

/-! ## Suppression -/

section Suppress
variable {K : Type} [LinearOrder K] (score : α → K) (clash : α → α → Prop) [DecidableRel clash]

/-- By falling score; equal scores keep their order. -/
def byScore (l : List α) : List α := l.insertionSort fun a b => score b ≤ score a

/-- Sort, then select. -/
def suppress (l : List α) : List α := select clash (byScore score l)

instance total_score : Std.Total fun a b : α => score b ≤ score a := ⟨fun _ _ => le_total _ _⟩

instance isTrans_score : IsTrans α fun a b => score b ≤ score a :=
  ⟨fun _ _ _ hab hbc => hbc.trans hab⟩

theorem pairwise_byScore (l : List α) : (byScore score l).Pairwise fun a b => score b ≤ score a :=
  List.pairwise_insertionSort _ l

theorem byScore_perm (l : List α) : (byScore score l).Perm l := List.perm_insertionSort _ l

theorem suppress_subperm (l : List α) : (suppress score clash l).Subperm l :=
  (select_sublist clash _).subperm.trans (byScore_perm score l).subperm

theorem pairwise_score (l : List α) :
    (suppress score clash l).Pairwise fun a b => score b ≤ score a :=
  (pairwise_byScore score l).sublist (select_sublist clash _)

theorem pairwise_not_clash (l : List α) :
    (suppress score clash l).Pairwise fun k b => ¬ clash b k :=
  pairwise_select clash _

/-- What is suppressed clashes with something that is kept and scores no less. The removed
    elements are any that complete the result to the list, so that the statement needs no
    function for them. -/
theorem exists_kept {l removed : List α} (h : (suppress score clash l ++ removed).Perm l) {d : α}
    (hd : d ∈ removed) : ∃ k ∈ suppress score clash l, clash d k ∧ score d ≤ score k := by
  obtain ⟨removed', hperm, hremoved⟩ := exists_removed clash (pairwise_byScore score l)
  have hsame : removed.Perm removed' :=
    (List.perm_append_left_iff _).mp (h.trans ((byScore_perm score l).symm.trans hperm.symm))
  exact hremoved d (hsame.subset hd)

/-- A second pass changes nothing: what is kept is sorted, and nothing in it clashes. -/
theorem suppress_suppress (l : List α) :
    suppress score clash (suppress score clash l) = suppress score clash l := by
  have hsorted : byScore score (suppress score clash l) = suppress score clash l :=
    (pairwise_score score clash l).insertionSort_eq
  rw [suppress, hsorted]
  exact select_eq_self clash (pairwise_not_clash score clash l)

/-- Parts of the list between which nothing clashes are treated independently. -/
theorem filter_suppress {p : α → Bool} (hp : ∀ b k, clash b k → p b = p k) (l : List α) :
    (suppress score clash l).filter p = suppress score clash (l.filter p) := by
  rw [suppress, filter_select clash hp, byScore, filter_insertionSort]
  rfl

end Suppress

end LocateAnything.Greedy
