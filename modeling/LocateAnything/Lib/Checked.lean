import Mathlib.Algebra.Group.Nat.Defs
import Mathlib.Data.List.Basic

/-!
# Programs that may panic

Rust's operations that panic instead of going wrong: indexing and slicing out of range, and
arithmetic on 64 bits that overflows. A program that uses them ends in a value or in a panic;
one with a loop may also run out of fuel. `loop_eq` is the rule for a loop that does neither.

A function is shown to be total by comparison. It is written once more with the operations of
this file, and shown to end in the value of the plain function; the lemmas give each
operation's value under the condition that it does not panic. That way the same proof says
that nothing panics and that the plain function is the right one to reason about.
-/

set_option autoImplicit false

namespace LocateAnything.Checked

variable {α β σ : Type}

inductive Panic where
  | outOfRange
  | overflow
  deriving DecidableEq

abbrev Exec := Except Panic

/-! ## Operations -/

/-- `a + b` on `usize` or `u64` -/
def add (a b : Nat) : Exec Nat := if a + b < 2 ^ 64 then .ok (a + b) else .error .overflow

/-- `a * b` on `usize` or `u64` -/
def mul (a b : Nat) : Exec Nat := if a * b < 2 ^ 64 then .ok (a * b) else .error .overflow

/-- `s[i]` -/
def index (s : List α) (i : Nat) : Exec α :=
  match s[i]? with
  | some a => .ok a
  | none => .error .outOfRange

/-- `s.get(i..j)` -/
def get? (s : List α) (i j : Nat) : Option (List α) :=
  if i ≤ j ∧ j ≤ s.length then some ((s.drop i).take (j - i)) else none

/-- `&s[i..j]` -/
def slice (s : List α) (i j : Nat) : Exec (List α) :=
  match get? s i j with
  | some t => .ok t
  | none => .error .outOfRange

/-- The operator `?` on an `Option`. -/
def andThen (x : Exec (Option α)) (f : α → Exec (Option β)) : Exec (Option β) := do
  match ← x with
  | some a => f a
  | none => return none

theorem add_eq_ok {a b : Nat} (h : a + b < 2 ^ 64) : add a b = .ok (a + b) := if_pos h

theorem mul_eq_ok {a b : Nat} (h : a * b < 2 ^ 64) : mul a b = .ok (a * b) := if_pos h

theorem index_getD {s : List α} {i : Nat} (h : i < s.length) (a : α) :
    index s i = .ok (s.getD i a) := by
  rw [index, List.getD_eq_getElem?_getD, List.getElem?_eq_getElem h]
  rfl

theorem slice_eq_ok {s : List α} {i j : Nat} (hij : i ≤ j) (hj : j ≤ s.length) :
    slice s i j = .ok ((s.drop i).take (j - i)) := by
  rw [slice, get?, if_pos ⟨hij, hj⟩]

theorem slice_from_zero {s : List α} {j : Nat} (hj : j ≤ s.length) :
    slice s 0 j = .ok (s.take j) := by
  rw [slice_eq_ok (Nat.zero_le j) hj, List.drop_zero, Nat.sub_zero]

theorem slice_to_end {s : List α} {i : Nat} (hi : i ≤ s.length) :
    slice s i s.length = .ok (s.drop i) := by
  rw [slice_eq_ok hi (Nat.le_refl _), List.take_of_length_le (Nat.le_of_eq List.length_drop)]

theorem andThen_eq {x : Exec (Option α)} {o : Option α} {f : α → Exec (Option β)}
    {g : α → Option β} (hx : x = .ok o) (hf : ∀ a, o = some a → f a = .ok (g a)) :
    andThen x f = .ok (o.bind g) := by
  subst hx
  cases o with
  | none => rfl
  | some a => exact hf a rfl

/-! ## Loops -/

/-- What the body of a `loop` comes to. -/
inductive Next (σ α : Type) where
  | again (s : σ)
  | done (a : α)

/-- `loop`; it comes to nothing when the fuel is used up. Running out of fuel is not a panic,
    so that a loop that never ends cannot be taken for one that fails. -/
def loop (body : σ → Exec (Next σ α)) : Nat → σ → Exec (Option α)
  | 0, _ => return none
  | fuel + 1, s => do
    match ← body s with
    | .again s => loop body fuel s
    | .done a => return some a

/-- **A loop whose body never panics and decreases a measure comes to a value**: the one its states
    have in common. -/
theorem loop_eq {body : σ → Exec (Next σ α)} {value : σ → α}
    (inv : σ → Prop) (measure : σ → Nat)
    (hbody : ∀ s, inv s → body s = .ok (.done (value s)) ∨
      ∃ s', body s = .ok (.again s') ∧ inv s' ∧ measure s' < measure s ∧ value s' = value s)
    {fuel : Nat} {s : σ} (hs : inv s) (hfuel : measure s < fuel) :
    loop body fuel s = .ok (some (value s)) := by
  induction fuel generalizing s with
  | zero => exact absurd hfuel (Nat.not_lt_zero _)
  | succ fuel ih =>
    rcases hbody s hs with hdone | ⟨s', hagain, hs', hlt, hvalue⟩
    · rw [loop, hdone]
      rfl
    · rw [loop, hagain, ← hvalue]
      exact ih hs' (by omega)

end LocateAnything.Checked
