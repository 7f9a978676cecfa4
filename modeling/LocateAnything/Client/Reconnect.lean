import LocateAnything.Lib.Binary64
import Mathlib.Data.List.Infix
import Mathlib.Tactic.Positivity

/-!
# `reference_client.py`: one connection after the other

`main_async` opens the WebSocket again and again, counts the failures since the last
connection that ended in order, and waits in between, longer each time.

What a connection comes to is not the loop's doing, so the loop is a function of the list of
outcomes. The counter is a fold over them. That it reaches a number says that the latest
outcomes, as many, are failures (`le_count_iff`), and over all prefixes, that somewhere in the
list there are as many failures in a row (`exists_le_count_iff`); the loop adds nothing to
that but the place where it stops. The exponent of the delay is computed by Python in integers
before the product is a float, and from `2 ** 1024` on it has no float: a client that is told
to try often enough does not abort but crashes.
-/

set_option autoImplicit false

namespace LocateAnything.Client

/-- How `run_once` ends. A closure in order resets the counter, as a return does. -/
inductive Outcome where
  | returned
  | closedOk
  | closedError
  /-- Any other exception. -/
  | raised
  deriving DecidableEq

def Outcome.failed : Outcome → Bool
  | returned | closedOk => false
  | closedError | raised => true

/-- What the flags say about reconnecting. Both numbers are `int`s of `argparse` and may be
    negative. -/
structure Policy where
  no_reconnect : Bool
  max_consecutive_errors : Int
  reconnect_delay : Int

/-- How the client ends. -/
inductive Ending where
  /-- `--no-reconnect` -/
  | stopped
  /-- `sys.exit(2)` -/
  | aborted
  /-- `OverflowError`, out of the computation of the delay -/
  | crashed
  deriving DecidableEq

namespace Policy

variable (P : Policy)

def baseDelay : ℚ := Binary64.double P.reconnect_delay

def maxDelay : ℚ := max P.baseDelay 60

/-- `min(max_delay, base_delay * (2 ** (consecutive_errors - 1)))`. From `2 ** 1024` on an `int` is
    too large for a `float`. -/
def delay (errors : Nat) : Option ℚ :=
  if errors ≤ 1024 then some (min P.maxDelay (P.baseDelay * 2 ^ ((errors : ℤ) - 1))) else none

/-- `consecutive_errors`, behind one more connection. -/
def count (errors : Nat) (o : Outcome) : Nat := if o.failed then errors + 1 else 0

/-- The loop of `main_async` over what becomes of the connections: the delays, and how the loop
    ends, if it does. -/
def loop (errors : Nat) : List Outcome → List ℚ × Option Ending
  | [] => ([], none)
  | o :: os =>
    if P.no_reconnect then ([], some .stopped)
    else if P.max_consecutive_errors ≤ count errors o then ([], some .aborted)
    else
      match P.delay (count errors o) with
      | none => ([], some .crashed)
      | some d => (d :: (loop (count errors o) os).1, (loop (count errors o) os).2)

/-- So many failures in a row end the loop … -/
def limit : Nat := min P.max_consecutive_errors.toNat 1025

/-- … like this. -/
def giveUp : Ending := if P.max_consecutive_errors ≤ 1025 then .aborted else .crashed

/-! ## The counter -/

theorem le_count_iff (os : List Outcome) : ∀ {n : Nat}, n ≤ os.foldl count 0 ↔
    ∃ fails, fails <:+ os ∧ fails.length = n ∧ ∀ o ∈ fails, o.failed = true := by
  induction os using List.reverseRecOn with
  | nil =>
    intro n
    simp only [List.foldl_nil, Nat.le_zero, List.suffix_nil]
    constructor
    · rintro rfl
      exact ⟨[], rfl, rfl, by simp⟩
    · rintro ⟨_, rfl, hlen, -⟩
      exact hlen.symm
  | append_singleton os o ih =>
    intro n
    rw [List.foldl_append, List.foldl_cons, List.foldl_nil]
    cases n with
    | zero => exact ⟨fun _ => ⟨[], List.nil_suffix, rfl, by simp⟩, fun _ => Nat.zero_le _⟩
    | succ n =>
      constructor
      · intro hle
        have hfailed : o.failed = true := by
          by_contra hf
          simp [count, hf] at hle
        rw [count, if_pos hfailed] at hle
        obtain ⟨fails, hsuffix, hlen, hall⟩ := ih.mp (Nat.le_of_succ_le_succ hle)
        refine ⟨fails ++ [o], List.suffix_concat_iff.mpr (.inr ⟨fails, rfl, hsuffix⟩), ?_, ?_⟩
        · rw [List.length_append, List.length_singleton, hlen]
        · rw [List.forall_mem_append, List.forall_mem_singleton]
          exact ⟨hall, hfailed⟩
      · rintro ⟨fails, hsuffix, hlen, hall⟩
        rcases List.suffix_concat_iff.mp hsuffix with rfl | ⟨fails, rfl, hsuffix'⟩
        · exact absurd hlen (by simp)
        rw [List.forall_mem_append, List.forall_mem_singleton] at hall
        rw [List.length_append, List.length_singleton] at hlen
        have hle := ih.mpr ⟨fails, hsuffix', Nat.succ.inj hlen, hall.1⟩
        rw [count, if_pos hall.2]
        omega

/-- Some connection brings the counter to `n` exactly if `n` of them fail in a row. -/
theorem exists_le_count_iff {os : List Outcome} {n : Nat} :
    (∃ pre, pre <+: os ∧ n ≤ pre.foldl count 0) ↔
      ∃ fails, fails <:+: os ∧ fails.length = n ∧ ∀ o ∈ fails, o.failed = true := by
  simp only [le_count_iff, List.infix_iff_suffix_prefix]
  constructor
  · rintro ⟨pre, hpre, fails, hsuffix, h⟩
    exact ⟨fails, ⟨pre, hsuffix, hpre⟩, h⟩
  · rintro ⟨fails, ⟨pre, hsuffix, hpre⟩, h⟩
    exact ⟨pre, hpre, fails, hsuffix, h⟩

/-! ## The loop -/

variable {P}

theorem count_le (errors : Nat) (o : Outcome) : count errors o ≤ errors + 1 := by
  unfold count
  split <;> omega

/-- One turn of the loop. -/
theorem loop_cons (hreconnect : P.no_reconnect = false) {errors : Nat} (herrors : errors < P.limit)
    (o : Outcome) (os : List Outcome) :
    (P.limit ≤ count errors o ∧ P.loop errors (o :: os) = ([], some P.giveUp)) ∨
      (count errors o < P.limit ∧ ∃ d, P.delay (count errors o) = some d ∧
        P.loop errors (o :: os) =
          (d :: (P.loop (count errors o) os).1, (P.loop (count errors o) os).2)) := by
  have hcount := count_le errors o
  rw [loop, hreconnect, if_neg (by simp)]
  unfold limit at herrors ⊢
  unfold giveUp
  by_cases habort : P.max_consecutive_errors ≤ count errors o
  · left
    rw [if_pos habort, if_pos (by omega)]
    exact ⟨by omega, rfl⟩
  · rw [if_neg habort]
    by_cases hdelay : count errors o ≤ 1024
    · right
      refine ⟨by omega, ?_⟩
      rw [delay, if_pos hdelay]
      exact ⟨_, rfl, rfl⟩
    · left
      rw [delay, if_neg hdelay, if_neg (by omega)]
      exact ⟨by omega, rfl⟩

/-- Some connection brings the counter to the limit. It is said with the counter of the
    moment, so that it passes from a list to its tail. -/
def Exhausts (P : Policy) (errors : Nat) (os : List Outcome) : Prop :=
  ∃ pre, pre <+: os ∧ P.limit ≤ pre.foldl count errors

theorem exhausts_cons_iff {errors : Nat} (herrors : errors < P.limit) {o : Outcome}
    {os : List Outcome} (hlt : count errors o < P.limit) :
    Exhausts P errors (o :: os) ↔ Exhausts P (count errors o) os := by
  constructor
  · rintro ⟨pre, hpre, hle⟩
    cases pre with
    | nil => exact absurd hle (Nat.not_le.mpr herrors)
    | cons o' pre =>
      obtain ⟨rfl, hpre'⟩ := List.cons_prefix_cons.mp hpre
      exact ⟨pre, hpre', hle⟩
  · rintro ⟨pre, hpre, hle⟩
    exact ⟨o :: pre, List.cons_prefix_cons.mpr ⟨rfl, hpre⟩, hle⟩

/-- The loop ends there, and nowhere else. -/
theorem loop_end (hreconnect : P.no_reconnect = false) (os : List Outcome) :
    ∀ {errors : Nat}, errors < P.limit →
      Exhausts P errors os ∧ (P.loop errors os).2 = some P.giveUp ∨
        ¬ Exhausts P errors os ∧ (P.loop errors os).2 = none := by
  induction os with
  | nil =>
    intro errors herrors
    right
    refine ⟨?_, rfl⟩
    rintro ⟨pre, hpre, hle⟩
    rw [List.prefix_nil.mp hpre] at hle
    exact absurd hle (Nat.not_le.mpr herrors)
  | cons o os ih =>
    intro errors herrors
    rcases loop_cons hreconnect herrors o os with ⟨hle, heq⟩ | ⟨hlt, d, -, heq⟩
    · left
      rw [heq]
      exact ⟨⟨[o], List.prefix_append [o] os, hle⟩, rfl⟩
    · rw [heq, exhausts_cons_iff herrors hlt]
      exact ih hlt

theorem delay_bounds (hbase : 0 ≤ P.baseDelay) {errors : Nat} {d : ℚ}
    (h : P.delay errors = some d) : P.baseDelay / 2 ≤ d ∧ d ≤ P.maxDelay := by
  rw [delay, Option.ite_none_right_eq_some, Option.some.injEq] at h
  obtain ⟨-, rfl⟩ := h
  have hbase_le : P.baseDelay ≤ P.maxDelay := le_max_left _ _
  have hpow : (2 : ℚ) ^ (-1 : ℤ) ≤ 2 ^ ((errors : ℤ) - 1) :=
    zpow_le_zpow_right₀ (by norm_num) (by omega)
  have hscaled := mul_le_mul_of_nonneg_left hpow hbase
  have hhalf : P.baseDelay * (2 : ℚ) ^ (-1 : ℤ) = P.baseDelay / 2 := by
    rw [zpow_neg_one, div_eq_mul_inv]
  rw [hhalf] at hscaled
  exact ⟨le_min (by linarith) hscaled, min_le_left _ _⟩

theorem loop_delays (hreconnect : P.no_reconnect = false) (hbase : 0 ≤ P.baseDelay)
    (os : List Outcome) : ∀ {errors : Nat}, errors < P.limit →
    ∀ d ∈ (P.loop errors os).1, P.baseDelay / 2 ≤ d ∧ d ≤ P.maxDelay := by
  induction os with
  | nil => simp [loop]
  | cons o os ih =>
    intro errors herrors
    rcases loop_cons hreconnect herrors o os with ⟨-, heq⟩ | ⟨hlt, d, hd, heq⟩
    · simp [heq]
    · rw [heq, List.forall_mem_cons]
      exact ⟨delay_bounds hbase hd, ih hlt⟩

/-- **The client gives up exactly at a run of failures as long as its limit**, however many there
    are in between: with status 2, or, where the limit is beyond 1025, in the computation of the
    delay. Until then it waits between half of `--reconnect-delay` and a minute, or
    `--reconnect-delay` if that is longer. -/
theorem gives_up_iff (hreconnect : P.no_reconnect = false) (hmax : 1 ≤ P.max_consecutive_errors)
    (hbase : 0 ≤ P.baseDelay) (os : List Outcome) :
    ((P.loop 0 os).2 = some P.giveUp ↔
      ∃ fails, fails <:+: os ∧ fails.length = P.limit ∧ ∀ o ∈ fails, o.failed = true) ∧
    ((P.loop 0 os).2 = some P.giveUp ∨ (P.loop 0 os).2 = none) ∧
    ∀ d ∈ (P.loop 0 os).1, P.baseDelay / 2 ≤ d ∧ d ≤ P.maxDelay := by
  have hlimit : 0 < P.limit := by
    unfold limit
    omega
  rw [← exists_le_count_iff]
  rcases loop_end hreconnect os hlimit with ⟨hex, h⟩ | ⟨hno, h⟩
  · rw [h]
    exact ⟨iff_of_true rfl hex, .inl rfl, loop_delays hreconnect hbase os hlimit⟩
  · rw [h]
    exact ⟨iff_of_false (by simp) hno, .inr rfl, loop_delays hreconnect hbase os hlimit⟩

/-- The defaults, `--max-consecutive-errors` apart. -/
def sample : Policy where
  no_reconnect := false
  max_consecutive_errors := 3
  reconnect_delay := 3

theorem gives_up_iff_three :
    (sample.loop 0 [.raised, .raised, .closedOk, .closedError, .raised, .closedError]).2 =
      some .aborted := by
  refine (gives_up_iff rfl (by decide) (by decide +kernel) _).1.mpr
    ⟨[.closedError, .raised, .closedError], ⟨[.raised, .raised, .closedOk], [], rfl⟩, rfl, ?_⟩
  decide

end Policy

end LocateAnything.Client
