import LocateAnything.Stream.Handler

/-!
# The idle timeout of the read loop

A peer that sends nothing should be closed after `READ_IDLE_TIMEOUT`. The deadline belongs to
a future of the `select!`, and the tick branch re-enters the `select!`: every ping that is
sent pushes the deadline back (`idle_deadline_iff`), and since pings are due four times as
often, the deadline never comes (`timeout_never_fires`).

What the deadline should be needs a time the code does not have: `since`, the moment of the
peer's last sign or of the entry into the loop, is history, and the armed deadline parts from
it with the first ping that is sent later than that. That the timeout branch is dead code
follows from the other timer. The next ping is never farther away than its interval, and
inside of the `select!` never nearer to the idle deadline than the rest of `READ_IDLE_TIMEOUT`
(`PingFirst`); so whenever the deadline might be looked at, a ping has been due before.
-/

set_option autoImplicit false

namespace LocateAnything.Stream

open Transition

namespace Handler

/-- **The armed deadline is the last sign of the peer, or the entry into the loop, plus
    `READ_IDLE_TIMEOUT`, and it has not passed.** -/
def IdleOk (h : Handler) : Prop :=
  ∀ poll, h.pc = .selecting poll →
    h.now ≤ h.since + readIdleTimeout ∧ h.idle = h.since + readIdleTimeout

/-- Re-entering the `select!` behind a ping does not move the deadline. It is a condition on
    the state, as the time of the ping and of the last sign are both there. -/
def PingKeepsDeadline (h : Handler) (a : Action) : Prop := a = .pingSent → h.now = h.since

theorem IdleOk.of_not_selecting {h : Handler} (hpc : ∀ poll, h.pc ≠ .selecting poll) : IdleOk h :=
  fun poll hp => absurd hp (hpc poll)

theorem IdleOk.enter (h : Handler) : IdleOk h.enter :=
  fun _ _ => ⟨Nat.le_add_right _ _, rfl⟩

theorem IdleOk.repoll {h : Handler} {p : Poll} (hok : IdleOk h) (hpc : h.pc = .selecting p)
    (p' : Poll) : IdleOk (h.goto (.selecting p')) :=
  fun _ _ => hok p hpc

theorem readsNext_iff {h : Handler} :
    h.readsNext = true ↔ h.pc = .selecting .rest ∧ h.now < h.ping := by
  simp [readsNext]

/-- The steps into a `select!` that keep the deadline are all but one. -/
theorem idleOk_step_iff {h h' : Handler} {a : Action} (hok : IdleOk h) (hs : h.Step a h') :
    IdleOk h' ↔ PingKeepsDeadline h a := by
  have keeps : ∀ {b : Action}, b ≠ .pingSent → IdleOk h' → (IdleOk h' ↔ PingKeepsDeadline h b) :=
    fun hb hok' => ⟨fun _ he => absurd he hb, fun _ => hok'⟩
  cases a with
  -- the one way into the `select!` that is no sign of the peer
  | pingSent =>
    obtain ⟨-, rfl⟩ := when_eq_some_iff.mp hs
    constructor
    · intro hok' _
      have := (hok' .first rfl).2
      simp only [select] at this
      omega
    · intro hkeep poll _
      have hnow := hkeep rfl
      simp only [select]
      omega
  -- time passes in a parked `select!` only, and not beyond the deadline
  | elapse d =>
    obtain ⟨hd, rfl⟩ := when_eq_some_iff.mp hs
    refine keeps (by simp) fun poll hp => ?_
    simp only at hp
    obtain ⟨hnow, hidle⟩ := hok poll hp
    simp only [mayElapse, hp] at hd
    cases poll <;> simp at hd
    simp only
    omega
  | notifyWaiters =>
    obtain rfl := Option.some.inj hs
    exact keeps (by simp) hok
  | connected | rejectionSent | replySent | other =>
    obtain ⟨-, rfl⟩ := when_eq_some_iff.mp hs
    exact keeps (by simp) (IdleOk.enter _)
  | wake =>
    obtain ⟨hpc, rfl⟩ := when_eq_some_iff.mp hs
    exact keeps (by simp) (hok.repoll (by simpa using hpc) _)
  | pending =>
    obtain ⟨hpc, rfl⟩ := when_eq_some_iff.mp hs
    simp only [Bool.and_eq_true, decide_eq_true_eq] at hpc
    exact keeps (by simp) (hok.repoll hpc.1 _)
  | park =>
    obtain ⟨hpc, rfl⟩ := when_eq_some_iff.mp hs
    simp only [Bool.and_eq_true, readsNext_iff] at hpc
    exact keeps (by simp) (hok.repoll hpc.1.1 _)
  | closeSent =>
    obtain ⟨-, -, rfl⟩ := step_closeSent hs
    exact keeps (by simp) (.of_not_selecting (by simp [goto]))
  | opened | connectFailed | shutdown | tick | binary | gone | timeout | accepted | rejected
  | fatal | inferOk | inferErr | sendFailed =>
    obtain ⟨-, rfl⟩ := when_eq_some_iff.mp hs
    exact keeps (by simp) (.of_not_selecting fun poll => by simp [goto, leave])

/-- **When the idle deadline holds throughout a run**: exactly if no ping was sent later than the
    last sign of the peer. -/
theorem idle_deadline_iff (now : Nat) (as : List Action) :
    Always Step IdleOk (start now) as ↔ Each Step PingKeepsDeadline (start now) as :=
  always_iff_each (I := fun _ => True) (fun _ _ _ _ _ => trivial)
    (fun _ _ _ _ hok hs => idleOk_step_iff hok hs) as trivial (.of_not_selecting (by simp [start]))

/-! ## A silent peer -/

/-- The first branch is pending, no message and no timer is due. -/
def waits : List Action := [.pending, .park]

/-- Fifteen seconds later, a ping. -/
def pings : List Action := [.elapse pingInterval, .wake, .pending, .tick, .pingSent] ++ waits

/-- Five pings after it opened its WebSocket, a peer that sent nothing is still waited for. -/
theorem silent_peer_not_closed :
    ∃ h, Run Step (start 0)
        ([.opened, .connected] ++ waits ++ pings ++ pings ++ pings ++ pings ++ pings) h ∧
      h.pc = .selecting .parked ∧ h.since + readIdleTimeout < h.now ∧ ¬ IdleOk h := by
  refine ⟨_, run_of_exec rfl, rfl, by decide, fun hok => ?_⟩
  exact absurd (hok .parked rfl).1 (by decide)

/-! ## The deadline never comes -/

/-- A ping is due well before the deadline. The second bound is only kept inside of the
    `select!`: outside there is no deadline. -/
structure PingFirst (h : Handler) : Prop where
  ping_le : h.ping ≤ h.now + pingInterval
  ping_le_idle : ∀ poll, h.pc = .selecting poll →
    h.ping + (readIdleTimeout - pingInterval) ≤ h.idle

theorem nextTick_le (h : Handler) : h.nextTick ≤ h.now + pingInterval := Nat.sub_le _ _

theorem PingFirst.select {h : Handler} (hp : h.ping ≤ h.now + pingInterval) :
    PingFirst h.select := by
  refine ⟨hp, fun _ _ => ?_⟩
  simp only [Handler.select, readIdleTimeout, pingInterval] at hp ⊢
  omega

theorem PingFirst.enter {h : Handler} (hp : h.ping ≤ h.now + pingInterval) : PingFirst h.enter :=
  ⟨(PingFirst.select hp).ping_le, (PingFirst.select hp).ping_le_idle⟩

/-- Outside the `select!` only the first bound is at stake. -/
theorem PingFirst.of_not_selecting {h : Handler} (hp : h.ping ≤ h.now + pingInterval)
    (hpc : ∀ poll, h.pc ≠ .selecting poll) : PingFirst h :=
  ⟨hp, fun poll he => absurd he (hpc poll)⟩

theorem PingFirst.repoll {h : Handler} {p : Poll} (hi : PingFirst h) (hpc : h.pc = .selecting p)
    (p' : Poll) : PingFirst (h.goto (.selecting p')) :=
  ⟨hi.ping_le, fun _ _ => hi.ping_le_idle p hpc⟩

theorem PingFirst.step {h h' : Handler} {a : Action} (hi : PingFirst h) (hs : h.Step a h') :
    PingFirst h' := by
  cases a with
  | elapse d =>
    obtain ⟨-, rfl⟩ := when_eq_some_iff.mp hs
    exact ⟨by have := hi.ping_le; simp only; omega, hi.ping_le_idle⟩
  | notifyWaiters =>
    obtain rfl := Option.some.inj hs
    exact ⟨hi.ping_le, hi.ping_le_idle⟩
  | connected =>
    obtain ⟨-, rfl⟩ := when_eq_some_iff.mp hs
    exact .enter (Nat.le_refl _)
  | pingSent =>
    obtain ⟨-, rfl⟩ := when_eq_some_iff.mp hs
    exact .select hi.ping_le
  | rejectionSent | replySent =>
    obtain ⟨-, rfl⟩ := when_eq_some_iff.mp hs
    exact .enter hi.ping_le
  | other =>
    obtain ⟨-, rfl⟩ := when_eq_some_iff.mp hs
    exact .enter (h := h.leave h.pc) hi.ping_le
  -- the ticks that were missed are skipped
  | tick =>
    obtain ⟨-, rfl⟩ := when_eq_some_iff.mp hs
    exact .of_not_selecting h.nextTick_le (by simp [leave])
  | wake =>
    obtain ⟨hpc, rfl⟩ := when_eq_some_iff.mp hs
    exact hi.repoll (by simpa using hpc) _
  | pending =>
    obtain ⟨hpc, rfl⟩ := when_eq_some_iff.mp hs
    simp only [Bool.and_eq_true, decide_eq_true_eq] at hpc
    exact hi.repoll hpc.1 _
  | park =>
    obtain ⟨hpc, rfl⟩ := when_eq_some_iff.mp hs
    simp only [Bool.and_eq_true, readsNext_iff] at hpc
    exact hi.repoll hpc.1.1 _
  | closeSent =>
    obtain ⟨-, -, rfl⟩ := step_closeSent hs
    exact .of_not_selecting hi.ping_le (by simp [goto])
  | opened | connectFailed | shutdown | binary | gone | timeout | accepted | rejected | fatal
  | inferOk | inferErr | sendFailed =>
    obtain ⟨-, rfl⟩ := when_eq_some_iff.mp hs
    exact .of_not_selecting hi.ping_le (by simp [goto, leave])

theorem pingFirst_start (now : Nat) : PingFirst (start now) :=
  .of_not_selecting (Nat.zero_le _) (by simp [start])

/-- Where a ping is due before the deadline, the timeout cannot fire. -/
theorem PingFirst.no_timeout {h : Handler} (hi : PingFirst h) : h.step .timeout = none := by
  cases ht : h.step .timeout with
  | none => rfl
  | some h' =>
    obtain ⟨hg, -⟩ := when_eq_some_iff.mp ht
    simp only [Bool.and_eq_true, readsNext_iff, decide_eq_true_eq] at hg
    obtain ⟨⟨hpc, hping⟩, hidle⟩ := hg
    have := hi.ping_le_idle _ hpc
    omega

/-- **The idle timeout never fires**, whatever the peer does or fails to do. -/
theorem timeout_never_fires {now : Nat} {as : List Action} {h : Handler}
    (hr : Run Step (start now) as h) : h.step .timeout = none := by
  have hi : PingFirst h :=
    hr.invariant (I := PingFirst) (fun _ _ _ => PingFirst.step) (pingFirst_start now)
  exact hi.no_timeout

end Handler

end LocateAnything.Stream
