import Mathlib.Logic.Basic

/-!
# Chains of checks

A validator is a chain of checks, each of which ends it with an error of its own or hands on. A
success of the chain is taken apart check by check: `ite_error_eq_ok` peels off the first one and
leaves a success of the rest.
-/

set_option autoImplicit false

namespace LocateAnything.Checks

variable {ε α : Type}

/-- A chain succeeds if its first check does not object, and the rest succeeds. -/
theorem ite_error_eq_ok {c : Prop} [Decidable c] {e : ε} {rest : Except ε α} {a : α} :
    (if c then .error e else rest) = .ok a ↔ ¬ c ∧ rest = .ok a := by
  by_cases hc : c
  · rw [if_pos hc]
    exact iff_of_false (by simp) fun h => h.1 hc
  · rw [if_neg hc]
    exact (and_iff_right hc).symm

/-- The last check of a chain. -/
theorem ite_error_ok_eq_ok {c : Prop} [Decidable c] {e : ε} {a b : α} :
    (if c then .error e else .ok a : Except ε α) = .ok b ↔ ¬ c ∧ a = b := by
  rw [ite_error_eq_ok, Except.ok.injEq]

end LocateAnything.Checks
