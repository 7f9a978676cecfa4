import Mathlib.Tactic.TypeStar

/-!
# Runs of a transition system

`step s a s'`: in state `s` the action `a` can lead to `s'`. A run is the list of the actions it
takes. `Always P` says that `P` holds in every state a run visits, `Each C` that `C` holds of
every action it takes, in the state it takes it in.

`always_of_invariant` is the usual rule for safety. `always_iff_each` is the rule for a property
that some steps break: where, under an invariant, a step keeps `P` exactly if it meets `C`, a run
keeps `P` throughout exactly if each of its steps meets `C`. `Run.fork` is the rule for a property
that only shows later: a step that meets `C` stays on one side, a step that does not crosses to the
other, and there is no way back. `exists_run_of_rank` is the rule for what can be reached.
-/

set_option autoImplicit false

namespace LocateAnything.Transition

variable {σ α : Type*} (step : σ → α → σ → Prop)

/-- `P` holds in every state visited from `s` on. -/
def Always (P : σ → Prop) : σ → List α → Prop
  | s, [] => P s
  | s, a :: as => P s ∧ ∀ s', step s a s' → Always P s' as

/-- `C` holds of every action taken from `s` on. -/
def Each (C : σ → α → Prop) : σ → List α → Prop
  | _, [] => True
  | s, a :: as => ∀ s', step s a s' → C s a ∧ Each C s' as

/-- The actions `as` lead from one state to the other. -/
inductive Run : σ → List α → σ → Prop where
  | nil {s : σ} : Run s [] s
  | cons {s s' t : σ} {a : α} {as : List α} : step s a s' → Run s' as t → Run s (a :: as) t

variable {step}

theorem Always.head {P : σ → Prop} {s : σ} {as : List α} (h : Always step P s as) : P s := by
  cases as with
  | nil => exact h
  | cons a as => exact h.1

theorem always_of_invariant {I : σ → Prop} (hstep : ∀ s a s', I s → step s a s' → I s')
    (as : List α) : ∀ {s : σ}, I s → Always step I s as := by
  induction as with
  | nil => intro s hs; exact hs
  | cons a as ih => intro s hs; exact ⟨hs, fun s' h => ih (hstep s a s' hs h)⟩

theorem Always.mono {P Q : σ → Prop} (hPQ : ∀ s, P s → Q s) (as : List α) :
    ∀ {s : σ}, Always step P s as → Always step Q s as := by
  induction as with
  | nil => intro s h; exact hPQ s h
  | cons a as ih => intro s h; exact ⟨hPQ s h.1, fun s' hs => ih (h.2 s' hs)⟩

theorem Always.last {P : σ → Prop} {s t : σ} {as : List α} (h : Always step P s as)
    (hrun : Run step s as t) : P t := by
  induction hrun with
  | nil => exact h
  | cons ha _ ih => exact ih (h.2 _ ha)

theorem Run.invariant {I : σ → Prop} (hstep : ∀ s a s', I s → step s a s' → I s') {s t : σ}
    {as : List α} (h : Run step s as t) (hs : I s) : I t := by
  induction h with
  | nil => exact hs
  | cons ha _ ih => exact ih (hstep _ _ _ hs ha)

theorem Run.append {s t u : σ} {as bs : List α} (h : Run step s as t) (h' : Run step t bs u) :
    Run step s (as ++ bs) u := by
  induction h with
  | nil => exact h'
  | cons ha _ ih => exact .cons ha (ih h')

/-- A run of a step that computes, computed. -/
def exec (f : σ → α → Option σ) (s : σ) : List α → Option σ
  | [] => some s
  | a :: as => (f s a).bind fun s' => exec f s' as

theorem run_of_exec {f : σ → α → Option σ} {as : List α} :
    ∀ {s t : σ}, exec f s as = some t → Run (fun s a s' => f s a = some s') s as t := by
  induction as with
  | nil =>
    intro s t h
    obtain rfl := Option.some.inj h
    exact .nil
  | cons a as ih =>
    intro s t h
    obtain ⟨s', ha, hrest⟩ := Option.bind_eq_some_iff.mp h
    exact .cons ha (ih hrest)

/-- **Where every state of `I` leads by actions of `ok` to the goal, or to a state of `I` of lower
    rank, it leads to the goal.** -/
theorem exists_run_of_rank {ok : α → Prop} {I G : σ → Prop} {rank : σ → Nat}
    (hlower : ∀ s, I s → ∃ as t, (∀ a ∈ as, ok a) ∧ Run step s as t ∧
      (G t ∨ I t ∧ rank t < rank s)) {s : σ} (hs : I s) :
    ∃ as t, (∀ a ∈ as, ok a) ∧ Run step s as t ∧ G t := by
  induction hn : rank s using Nat.strongRecOn generalizing s with
  | ind n ih =>
    obtain ⟨as, t, hok, hrun, hG | ⟨hI, hlt⟩⟩ := hlower s hs
    · exact ⟨as, t, hok, hrun, hG⟩
    · obtain ⟨bs, u, hok', hrun', hG⟩ := ih (rank t) (by omega) hI rfl
      refine ⟨as ++ bs, u, fun a ha => ?_, hrun.append hrun', hG⟩
      exact (List.mem_append.mp ha).elim (hok a) (hok' a)

theorem always_of_each {A : σ → Prop} {C : σ → α → Prop}
    (hgood : ∀ s a s', A s → C s a → step s a s' → A s') (as : List α) :
    ∀ {s : σ}, A s → Each step C s as → Always step A s as := by
  induction as with
  | nil => intro s hs _; exact hs
  | cons a as ih =>
    intro s hs h
    refine ⟨hs, fun s' ha => ?_⟩
    obtain ⟨hc, hrest⟩ := h s' ha
    exact ih (hgood s a s' hs hc ha) hrest

/-- **A run meets `C` throughout and ends on the one side, or fails to and ends on the other.** -/
theorem Run.fork {A B : σ → Prop} {C : σ → α → Prop}
    (hdet : ∀ s a s' s'', step s a s' → step s a s'' → s' = s'')
    (hgood : ∀ s a s', A s → C s a → step s a s' → A s')
    (hbad : ∀ s a s', A s → ¬ C s a → step s a s' → B s')
    (hoff : ∀ s a s', B s → step s a s' → B s') {s t : σ} {as : List α} (h : Run step s as t)
    (hs : A s) : (Each step C s as ∧ A t) ∨ (¬ Each step C s as ∧ B t) := by
  induction h with
  | nil => exact .inl ⟨trivial, hs⟩
  | @cons s s' t a as ha hrun ih =>
    -- off the condition, `B` is reached here and never left
    by_cases hc : C s a
    · rcases ih (hgood s a s' hs hc ha) with ⟨heach, ht⟩ | ⟨heach, ht⟩
      · left
        refine ⟨fun s'' ha' => ⟨hc, ?_⟩, ht⟩
        rw [← hdet s a s' s'' ha ha']
        exact heach
      · right
        exact ⟨fun h => heach (h s' ha).2, ht⟩
    · right
      exact ⟨fun h => hc (h s' ha).1, hrun.invariant hoff (hbad s a s' hs hc ha)⟩

/-- **Where a step keeps `P` exactly if it meets `C`, so does a run.** -/
theorem always_iff_each {I P : σ → Prop} {C : σ → α → Prop}
    (hI : ∀ s a s', I s → step s a s' → I s')
    (hP : ∀ s a s', I s → P s → step s a s' → (P s' ↔ C s a)) (as : List α) :
    ∀ {s : σ}, I s → P s → (Always step P s as ↔ Each step C s as) := by
  induction as with
  | nil => intro s _ hs; simp [Always, Each, hs]
  | cons a as ih =>
    intro s hi hs
    constructor
    · intro h s' ha
      have hs' := (h.2 s' ha).head
      exact ⟨(hP s a s' hi hs ha).mp hs', (ih (hI s a s' hi ha) hs').mp (h.2 s' ha)⟩
    · intro h
      refine ⟨hs, fun s' ha => ?_⟩
      obtain ⟨hc, hrest⟩ := h s' ha
      exact (ih (hI s a s' hi ha) ((hP s a s' hi hs ha).mpr hc)).mpr hrest

end LocateAnything.Transition
