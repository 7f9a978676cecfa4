import Mathlib.Logic.Function.Basic
import LocateAnything.Stream.Handler

/-!
# Shutdown

`main` calls `notify_waiters` once; every handler should then close its WebSocket with 1001. The
notification has no memory: it reaches the `Notified` futures that exist, and a handler has one
only while it is in the `select!` of its read loop. A handler caught anywhere else comes back to
a `select!` with a fresh future and goes on as before.

What heeding the call means is said of every state a handler is in afterwards (`Heeds`): in a
`select!` its own steps lead to the Close with 1001 and nowhere else. Whether it will be so is
decided by where the call finds the handler (`Watching`), and by nothing that comes later:
`shutdown_heeded_iff` proves both that a watching handler heeds the call however the server goes
on, and that for every other position there is a way to go on in which the call is lost.
-/

set_option autoImplicit false

namespace LocateAnything.Stream

open Transition

/-! ## The server -/

/-- An action of one handler, or of the world around them all. -/
inductive ServerAction (ι : Type) where
  | one (i : ι) (a : Action)
  | elapse (d : Nat)
  | notifyWaiters

/-- Time and the call are everyone's. -/
def Action.shared : Action → Bool
  | .elapse _ | .notifyWaiters => true
  | _ => false

def ServerAction.wellFormed {ι : Type} : ServerAction ι → Bool
  | one _ a => !a.shared
  | _ => true

/-- What an action of the server is for handler `i`. -/
def ServerAction.at {ι : Type} [DecidableEq ι] (i : ι) : ServerAction ι → Option Action
  | one j a => if j = i then some a else none
  | elapse d => some (.elapse d)
  | notifyWaiters => some .notifyWaiters

/-- The handlers of a server; each takes its part in every step. -/
def ServerStep {ι : Type} [DecidableEq ι] (H : ι → Handler) (x : ServerAction ι)
    (H' : ι → Handler) : Prop :=
  x.wellFormed = true ∧ ∀ i, match x.at i with
    | some a => (H i).Step a (H' i)
    | none => H' i = H i

namespace Handler

/-- **The handler takes the shutdown branch and sends the Close.** Polled again if it is parked, it
    finds the first branch ready, and what it awaits then is the sending of a Close with 1001.
    `only` says that nothing else can come of this `select!`: the steps that are not the
    handler's own (time, a further call) aside, there is no other step. -/
structure TakesShutdown (h : Handler) : Prop where
  closes : ∃ as h₁ h₂, (as = [] ∨ as = [.wake]) ∧ Run Step h (as ++ [.shutdown]) h₁ ∧
    h₁.pc = .closing closeGoingAway ∧ h₁.Step .closeSent h₂
  only : ∀ a h₁, h.Step a h₁ →
    a.shared = true ∨ a = .wake ∨ a = .shutdown ∧ h₁.pc = .closing closeGoingAway

/-- **The handler heeds the call.** It has not left a `select!` for anything else since, has
    forwarded no Frame it read since; wherever it is in a `select!`, that `select!` ends by the
    shutdown branch; and once in the Close with 1001, it does nothing but send it. -/
structure Heeds (h : Handler) : Prop where
  not_missed : h.missed = false
  no_forward : h.lateForward = false
  takes : h.called = true → h.selects = true → h.TakesShutdown
  sends : h.called = true → h.pc = .closing closeGoingAway →
    ∀ a h₁, h.Step a h₁ → a.shared = true ∨ a = .closeSent

/-- **The handler watches the signal**: its `select!` will poll the first branch before any other,
    because the poll is still to begin or because it is parked, or it is already sending a Close
    and will not come back to a `select!`. A `select!` that has passed its first branch does not
    count: another branch may be ready, and completes in this very poll. -/
def Watching (h : Handler) : Prop :=
  h.pc = .selecting .first ∨ h.pc = .selecting .parked ∨ ∃ code, h.pc = .closing code

/-! ## A watching handler heeds the call -/

/-- What a handler that was watching is, from the call on: about to find the first branch ready,
    sending a Close, or done, with nothing in its history to hold against it. -/
structure Ending (h : Handler) : Prop where
  not_missed : h.missed = false
  no_forward : h.lateForward = false
  place : (h.pc = .selecting .first ∨ h.pc = .selecting .parked) ∧ h.notified = true ∨
    (∃ code, h.pc = .closing code) ∨ h.pc = .closed

theorem Ending.step {h h' : Handler} {a : Action} (he : Ending h) (hs : h.Step a h') :
    Ending h' := by
  obtain ⟨hm, hl, ⟨hpc | hpc, hn⟩ | ⟨code, hpc⟩ | hpc⟩ := he
  case inl.inl =>
    cases a <;> simp [Step, Handler.step, hpc, hn, readsNext, mayElapse] at hs <;> subst hs <;>
      exact ⟨hm, hl, by simp [goto]⟩
  case inl.inr =>
    cases a <;> simp [Step, Handler.step, hpc, readsNext] at hs
    case elapse d =>
      obtain ⟨-, rfl⟩ := hs
      exact ⟨hm, hl, by simp [hn]⟩
    case notifyWaiters =>
      subst hs
      exact ⟨hm, hl, by simp [hn]⟩
    case wake =>
      subst hs
      exact ⟨hm, hl, .inl ⟨.inl rfl, hn⟩⟩
  all_goals
    cases a <;> simp [Step, Handler.step, hpc, readsNext, mayElapse] at hs <;> subst hs <;>
      exact ⟨hm, hl, by simp [goto]⟩

/-- A notified `select!` whose first branch is next has no step of its own but the shutdown. -/
theorem takesShutdown_of_first {h : Handler} (hpc : h.pc = .selecting .first)
    (hn : h.notified = true) : h.TakesShutdown where
  closes := ⟨[], h.goto (.closing closeGoingAway), (h.goto (.closing closeGoingAway)).goto .closed,
    .inl rfl, .cons (by simp [Step, Handler.step, hpc, hn]) .nil, rfl, rfl⟩
  only := by
    intro a h₁ hs
    cases a <;> simp [Step, Handler.step, hpc, hn, readsNext] at hs <;>
      simp [Action.shared, ← hs, goto]

/-- A parked one has none but to be polled again, and is then the one above. -/
theorem takesShutdown_of_parked {h : Handler} (hpc : h.pc = .selecting .parked)
    (hn : h.notified = true) : h.TakesShutdown where
  closes := by
    have hwake : h.Step .wake (h.goto (.selecting .first)) := by simp [Step, Handler.step, hpc]
    have hshutdown : (h.goto (.selecting .first)).Step .shutdown
        (h.goto (.closing closeGoingAway)) := by
      simp [Step, Handler.step, goto, hn]
    exact ⟨[.wake], _, _, .inr rfl, .cons hwake (.cons hshutdown .nil), rfl, rfl⟩
  only := by
    intro a h₁ hs
    cases a <;> simp [Step, Handler.step, hpc, readsNext] at hs <;> simp [Action.shared]

theorem Ending.heeds {h : Handler} (he : Ending h) : h.Heeds where
  not_missed := he.not_missed
  no_forward := he.no_forward
  takes := by
    intro _ hsel
    rcases he.place with ⟨hpc | hpc, hn⟩ | ⟨code, hpc⟩ | hpc
    · exact takesShutdown_of_first hpc hn
    · exact takesShutdown_of_parked hpc hn
    · simp [selects, hpc] at hsel
    · simp [selects, hpc] at hsel
  sends := by
    intro _ hpc a h₁ hs
    cases a <;> simp [Step, Handler.step, hpc, readsNext] at hs <;> simp [Action.shared]

/-- Before the call there is nothing to have missed. -/
def Uncalled (h : Handler) : Prop :=
  h.called = false → h.missed = false ∧ h.lateFrame = false ∧ h.lateForward = false

theorem Uncalled.step {h h' : Handler} {a : Action} (hi : Uncalled h) (hs : h.Step a h') :
    Uncalled h' := by
  cases a with
  | notifyWaiters =>
    obtain rfl := Option.some.inj hs
    intro hc
    exact hi (Bool.or_eq_false_iff.mp hc).1
  | closeSent =>
    obtain ⟨-, -, rfl⟩ := step_closeSent hs
    exact hi
  | tick | binary | other | gone | timeout =>
    obtain ⟨-, rfl⟩ := when_eq_some_iff.mp hs
    intro hc
    have hc : h.called = false := hc
    simp [leave, enter, select, hi hc, hc]
  | accepted =>
    obtain ⟨-, rfl⟩ := when_eq_some_iff.mp hs
    intro hc
    have hc : h.called = false := hc
    simp [hi hc]
  | elapse d =>
    obtain ⟨-, rfl⟩ := when_eq_some_iff.mp hs
    exact hi
  | opened | connected | connectFailed | wake | shutdown | pending | park | pingSent | rejected
  | fatal | rejectionSent | inferOk | inferErr | replySent | sendFailed =>
    obtain ⟨-, rfl⟩ := when_eq_some_iff.mp hs
    exact hi

/-- The call itself puts a watching handler on its way: a `select!` has a `Notified` future, and
    the call marks it. -/
theorem Watching.ending {h h' : Handler} (hw : h.Watching) (hu : h.Uncalled)
    (hc : h.called = false) (hs : h.Step .notifyWaiters h') : Ending h' := by
  obtain rfl := Option.some.inj hs
  obtain ⟨hm, -, hl⟩ := hu hc
  refine ⟨hm, hl, ?_⟩
  rcases hw with hpc | hpc | hpc
  · exact .inl ⟨.inl hpc, by simp [selects, hpc]⟩
  · exact .inl ⟨.inr hpc, by simp [selects, hpc]⟩
  · exact .inr (.inl hpc)

/-! ## Any other handler may lose it -/

/-- A `select!` that was entered after the call has a fresh future, and polls on past it. -/
theorem not_heeds_of_fresh {h : Handler} (hpc : h.pc = .selecting .first)
    (hn : h.notified = false) (hc : h.called = true) : ¬ h.Heeds := by
  intro hh
  have hpending : h.Step .pending (h.goto (.selecting .rest)) := by
    simp [Step, Handler.step, hpc, hn]
  have := (hh.takes hc (by simp [selects, hpc])).only _ _ hpending
  simp [Action.shared] at this

/-- **A handler that is not watching can come back to a `select!` as if nothing had happened**: it
    finishes what it is at, or completes the branch its poll has found ready. -/
theorem exists_fresh_select {h : Handler} (ha : h.alive = true) (hw : ¬ h.Watching) :
    ∃ as h', (∀ a ∈ as, a.shared = false) ∧ Run Step h as h' ∧
      h'.pc = .selecting .first ∧ h'.notified = false ∧ h'.called = h.called := by
  have hrun : ∀ as : List Action, (∀ a ∈ as, a.shared = false) →
      (∃ h', h.exec as = some h' ∧
        h'.pc = .selecting .first ∧ h'.notified = false ∧ h'.called = h.called) →
      ∃ as h', (∀ a ∈ as, a.shared = false) ∧ Run Step h as h' ∧
        h'.pc = .selecting .first ∧ h'.notified = false ∧ h'.called = h.called :=
    fun as has ⟨h', he, hend⟩ => ⟨as, h', has, run_of_exec he, hend⟩
  cases hpc : h.pc with
  | unopened | closed => simp [alive, hpc] at ha
  | closing code => exact absurd (.inr (.inr ⟨code, hpc⟩)) hw
  | connecting =>
    refine hrun [.connected] (by decide) ?_
    simp [Handler.exec, Handler.step, when, hpc, enter, select]
  | pinging =>
    refine hrun [.pingSent] (by decide) ?_
    simp [Handler.exec, Handler.step, when, hpc, select]
  | processing =>
    refine hrun [.rejected, .rejectionSent] (by decide) ?_
    simp [Handler.exec, Handler.step, when, hpc, goto, enter, select]
  | rejecting =>
    refine hrun [.rejectionSent] (by decide) ?_
    simp [Handler.exec, Handler.step, when, hpc, enter, select]
  | inferring =>
    refine hrun [.inferOk, .replySent] (by decide) ?_
    simp [Handler.exec, Handler.step, when, hpc, goto, enter, select]
  | replying =>
    refine hrun [.replySent] (by decide) ?_
    simp [Handler.exec, Handler.step, when, hpc, enter, select]
  | selecting poll =>
    cases poll with
    | first => exact absurd (.inl hpc) hw
    | parked => exact absurd (.inr (.inl hpc)) hw
    | rest =>
      -- the tick comes before the messages, so which branch can complete is a matter of time
      by_cases ht : h.now < h.ping
      · refine hrun [.other] (by decide) ?_
        simp [Handler.exec, Handler.step, when, hpc, readsNext, ht, leave, enter, select]
      · refine hrun [.tick, .pingSent] (by decide) ?_
        simp [Handler.exec, Handler.step, when, hpc, Nat.not_lt.mp ht, leave, select]

end Handler

/-! ## Every handler of a server -/

section Server
variable {ι : Type} [DecidableEq ι]

/-- Every step of the server is a step of handler `i`, or none of its business. -/
theorem ServerStep.handler {H H' : ι → Handler} {x : ServerAction ι} (hs : ServerStep H x H')
    (i : ι) : (∃ a, x.at i = some a ∧ (H i).Step a (H' i)) ∨ x.at i = none ∧ H' i = H i := by
  have := hs.2 i
  cases hx : x.at i with
  | some a => rw [hx] at this; exact .inl ⟨a, rfl, this⟩
  | none => rw [hx] at this; exact .inr ⟨rfl, this⟩

/-- What every step of a handler keeps, every step of the server keeps. -/
theorem ServerStep.keeps {I : Handler → Prop} (hI : ∀ h a h', I h → h.Step a h' → I h') (i : ι)
    (H : ι → Handler) (x : ServerAction ι) (H' : ι → Handler) (h : I (H i))
    (hs : ServerStep H x H') : I (H' i) := by
  rcases hs.handler i with ⟨a, -, ha⟩ | ⟨-, he⟩
  · exact hI _ a _ h ha
  · rw [he]; exact h

/-- A handler may take its own steps while the others rest. -/
theorem run_one {i : ι} {as : List Action} (has : ∀ a ∈ as, a.shared = false) {H : ι → Handler}
    {h' : Handler} (h : Run Handler.Step (H i) as h') :
    Run ServerStep H (as.map (.one i)) (Function.update H i h') := by
  generalize hh : H i = h₀ at h
  induction h generalizing H with
  | nil =>
    rw [← hh, Function.update_eq_self]
    exact .nil
  | @cons s s' t a as hs _ ih =>
    have hstep : ServerStep H (.one i a) (Function.update H i s') := by
      refine ⟨by simp [ServerAction.wellFormed, has a (by simp)], fun j => ?_⟩
      by_cases hj : i = j
      · subst hj
        simpa [ServerAction.at, hh] using hs
      · simp [ServerAction.at, hj, Function.update_of_ne (Ne.symm hj)]
    have hrest := ih (fun b hb => has b (List.mem_cons_of_mem a hb)) (H := Function.update H i s')
      (Function.update_self ..)
    rw [Function.update_idem] at hrest
    exact .cons hstep hrest

/-- **Which handlers the call reaches.** In every run of a server, a handler that is alive at the
    call, and has not been called before, heeds it however the server goes on exactly if the call
    finds it watching. -/
theorem shutdown_heeded_iff (now : ι → Nat) (xs : List (ServerAction ι)) (H H₁ : ι → Handler)
    (i : ι) (hrun : Run ServerStep (fun j => Handler.start (now j)) xs H)
    (hcall : ServerStep H .notifyWaiters H₁) (halive : (H i).alive = true)
    (hfirst : (H i).called = false) :
    (∀ ys, Always ServerStep (fun H => (H i).Heeds) H₁ ys) ↔ (H i).Watching := by
  have hu : (H i).Uncalled :=
    hrun.invariant (ServerStep.keeps (fun _ _ _ => Handler.Uncalled.step) i)
      (fun _ => ⟨rfl, rfl, rfl⟩)
  have hs : (H i).Step .notifyWaiters (H₁ i) := hcall.2 i
  constructor
  · intro hall
    by_contra hw
    have h₁ : H₁ i = { H i with called := true, notified := (H i).notified || (H i).selects } := by
      have := (Option.some.inj hs).symm
      simpa [halive] using this
    have hw₁ : ¬ (H₁ i).Watching := by rw [h₁]; exact hw
    have ha₁ : (H₁ i).alive = true := by rw [h₁]; exact halive
    obtain ⟨as, h', has, hrun', hpc, hn, hc⟩ := Handler.exists_fresh_select ha₁ hw₁
    refine Handler.not_heeds_of_fresh hpc hn (hc.trans (by rw [h₁])) ?_
    simpa using (hall (as.map (.one i))).last (run_one has hrun')
  · intro hw ys
    have hending := hw.ending hu hfirst hs
    exact (always_of_invariant (I := fun H => (H i).Ending)
      (ServerStep.keeps (fun _ _ _ => Handler.Ending.step) i) ys hending).mono
      (fun _ h => h.heeds)

end Server

/-- One handler, parked in the `select!` of its read loop when the call comes. -/
theorem shutdown_heeded_iff_parked :
    ∃ H : Unit → Handler, (H ()).pc = .selecting .parked ∧ (H ()).called = true ∧
      ∀ ys, Always ServerStep (fun H => (H ()).Heeds) H ys := by
  have hpark : Run Handler.Step (.start 0) [.opened, .connected, .pending, .park] _ :=
    Handler.run_of_exec rfl
  have hrun := run_one (i := ()) (by decide) (H := fun _ => Handler.start 0) hpark
  have hcall : ∀ h : Handler, ServerStep (fun _ : Unit => h) .notifyWaiters
      (fun _ => { h with called := h.called || h.alive, notified := h.notified || h.selects }) :=
    fun _ => ⟨rfl, fun _ => rfl⟩
  exact ⟨_, rfl, rfl, (shutdown_heeded_iff (fun _ => 0) _ _ _ () hrun (hcall _) rfl rfl).mpr
    (.inr (.inl rfl))⟩

/-! ## A lost call -/

/-- A Frame is read and forwarded. -/
def forwards : List Action := [.pending, .binary, .accepted]

/-- The call comes while the worker is at work on a Frame; the handler sends the reply, reads the
    next Frame and forwards that one, too. -/
theorem call_lost_during_inference :
    ∃ h, Run Handler.Step (.start 0)
        ([.opened, .connected] ++ forwards ++ [.notifyWaiters, .inferOk, .replySent] ++ forwards)
        h ∧
      h.called = true ∧ h.pc = .inferring ∧ h.lateForward = true ∧ ¬ h.Heeds :=
  ⟨_, Handler.run_of_exec rfl, rfl, rfl, rfl, fun hh => absurd hh.no_forward (by decide)⟩

end LocateAnything.Stream
