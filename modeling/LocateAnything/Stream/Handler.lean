import LocateAnything.Lib.Transition

/-!
# `handle_ws`, as a timed automaton

Where a WebSocket handler can be, what it awaits there, and what lets it go on. Time is in
milliseconds and passes only while the handler awaits something; it cannot pass a timer that is
due. The `select!` of the read loop is modelled branch by branch: its futures are created when it
is entered, polled in the order of the source (`biased`), and dropped with whatever has happened
to them when one branch completes.

`notify_waiters` marks the `Notified` future of a handler that has one, and leaves nothing behind
for the others.

The last fields of `Handler` are history: the code has no such variables, the properties of its
runs are about them.
-/

set_option autoImplicit false

namespace LocateAnything.Stream

/-- `PING_INTERVAL` -/
def pingInterval : Nat := 15000

/-- `READ_IDLE_TIMEOUT` -/
def readIdleTimeout : Nat := 60000

/-- `CLOSE_GOING_AWAY` -/
def closeGoingAway : Nat := 1001

/-- `CLOSE_POLICY_VIOLATION` -/
def closePolicyViolation : Nat := 1008

/-- `CLOSE_SERVER_ERROR` -/
def closeServerError : Nat := 1011

/-- How far a poll of the `select!` has got. -/
inductive Poll where
  /-- The branches are next, from the first one on. -/
  | first
  /-- The first branch was pending; the others are next. -/
  | rest
  /-- All were pending. -/
  | parked
  deriving DecidableEq, Repr

/-- What the handler awaits. -/
inductive Pc where
  /-- Nothing: the WebSocket is not open yet. -/
  | unopened
  /-- `WorkerConn::connect` -/
  | connecting
  /-- The `select!` of the read loop. -/
  | selecting (poll : Poll)
  /-- The ping of the tick branch. -/
  | pinging
  /-- `process_binary` -/
  | processing
  /-- The reply to a rejected Frame. -/
  | rejecting
  /-- `conn.infer` -/
  | inferring
  /-- The reply of the worker. -/
  | replying
  /-- `send_close` -/
  | closing (code : Nat)
  | closed
  deriving DecidableEq, Repr

structure Handler where
  pc : Pc
  now : Nat
  /-- When the interval ticks next. -/
  ping : Nat
  /-- When the `timeout` of the `select!` fires. -/
  idle : Nat
  /-- The `Notified` future of the `select!` has been notified. -/
  notified : Bool
  /-- The later of the last message received and the entry into the read loop. -/
  since : Nat
  /-- `notify_waiters` was called while the handler was alive. -/
  called : Bool
  /-- Since then the handler left a `select!` by another branch than the first. -/
  missed : Bool
  /-- The Frame in hand was read after the call. -/
  lateFrame : Bool
  /-- Such a Frame was forwarded to the worker. -/
  lateForward : Bool
  deriving DecidableEq

inductive Action where
  | elapse (d : Nat)
  | notifyWaiters
  | opened
  | connected
  | connectFailed
  /-- The task is polled again. -/
  | wake
  /-- The first branch: the server shuts down. -/
  | shutdown
  /-- The first branch is pending. -/
  | pending
  /-- The second branch. -/
  | tick
  /-- The third branch: a Binary message, … -/
  | binary
  /-- … a Text, Ping or Pong, … -/
  | other
  /-- … a Close, an error or the end of the stream, … -/
  | gone
  /-- … or nothing for too long. -/
  | timeout
  /-- No branch is ready. -/
  | park
  | pingSent
  /-- `BinaryOutcome::Pending` -/
  | accepted
  /-- `BinaryOutcome::PerFrame` -/
  | rejected
  /-- `BinaryOutcome::FatalFraming` -/
  | fatal
  | rejectionSent
  | inferOk
  | inferErr
  | replySent
  /-- The peer is gone: a ping, a rejection or a reply cannot be sent. -/
  | sendFailed
  | closeSent
  deriving DecidableEq

namespace Handler

def alive (h : Handler) : Bool := h.pc ≠ .unopened && h.pc ≠ .closed

def selects (h : Handler) : Bool :=
  match h.pc with
  | .selecting _ => true
  | _ => false

/-- Create the futures of the `select!`. -/
def select (h : Handler) : Handler :=
  { h with pc := .selecting .first, idle := h.now + readIdleTimeout, notified := false }

/-- Enter the read loop. -/
def enter (h : Handler) : Handler := { h.select with since := h.now }

/-- Leave the `select!` by a branch other than the first. -/
def leave (h : Handler) (pc : Pc) : Handler := { h with pc := pc, missed := h.missed || h.called }

/-- The next tick of an interval that skips the ticks it missed. -/
def nextTick (h : Handler) : Nat := h.now + pingInterval - (h.now - h.ping) % pingInterval

/-- `d` may pass. -/
def mayElapse (h : Handler) (d : Nat) : Bool :=
  match h.pc with
  | .selecting .parked => h.now + d ≤ h.ping && h.now + d ≤ h.idle
  | .selecting _ => false
  | _ => true

def goto (h : Handler) (pc : Pc) : Handler := { h with pc := pc }

/-- The action leads to `h'` wherever its guard holds. -/
def when (guard : Bool) (h' : Handler) : Option Handler := if guard then some h' else none

/-- The second branch of the `select!` is next and pending. -/
def readsNext (h : Handler) : Bool := h.pc = .selecting .rest && decide (h.now < h.ping)

/-- **One step of a handler.** -/
def step (h : Handler) : Action → Option Handler
  | .elapse d => when (h.mayElapse d) { h with now := h.now + d }
  | .notifyWaiters =>
    some { h with called := h.called || h.alive, notified := h.notified || h.selects }
  | .opened => when (h.pc = .unopened) (h.goto .connecting)
  -- the immediate first tick is eaten, so the next is a whole interval away
  | .connected => when (h.pc = .connecting) (enter { h with ping := h.now + pingInterval })
  | .connectFailed => when (h.pc = .connecting) (h.goto (.closing closeServerError))
  | .wake => when (h.pc = .selecting .parked) (h.goto (.selecting .first))
  | .shutdown =>
    when (h.pc = .selecting .first && h.notified) (h.goto (.closing closeGoingAway))
  | .pending => when (h.pc = .selecting .first && !h.notified) (h.goto (.selecting .rest))
  | .tick =>
    when (h.pc = .selecting .rest && decide (h.ping ≤ h.now))
      { h.leave .pinging with ping := h.nextTick }
  | .binary => when h.readsNext { h.leave .processing with since := h.now, lateFrame := h.called }
  -- `continue` enters the `select!` anew, with a new timeout
  | .other => when h.readsNext (h.leave h.pc).enter
  | .gone => when h.readsNext (h.leave .closed)
  | .timeout =>
    when (h.readsNext && decide (h.idle ≤ h.now)) (h.leave (.closing closeGoingAway))
  | .park => when (h.readsNext && decide (h.now < h.idle)) (h.goto (.selecting .parked))
  -- the end of a ping does, too, though the peer has given no sign
  | .pingSent => when (h.pc = .pinging) h.select
  -- nothing between the read and `infer` looks at the shutdown
  | .accepted =>
    when (h.pc = .processing)
      { h with pc := .inferring, lateForward := h.lateForward || h.lateFrame }
  | .rejected => when (h.pc = .processing) (h.goto .rejecting)
  | .fatal => when (h.pc = .processing) (h.goto (.closing closePolicyViolation))
  | .rejectionSent => when (h.pc = .rejecting) h.enter
  | .inferOk => when (h.pc = .inferring) (h.goto .replying)
  | .inferErr => when (h.pc = .inferring) (h.goto (.closing closeServerError))
  | .replySent => when (h.pc = .replying) h.enter
  | .sendFailed =>
    when (h.pc = .pinging || h.pc = .rejecting || h.pc = .replying) (h.goto .closed)
  | .closeSent =>
    match h.pc with
    | .closing _ => some (h.goto .closed)
    | _ => none

/-- A handler before its WebSocket is opened. -/
def start (now : Nat) : Handler :=
  { pc := .unopened, now := now, ping := 0, idle := 0, notified := false, since := now,
    called := false, missed := false, lateFrame := false, lateForward := false }

/-- The handler's steps as a relation. -/
def Step (h : Handler) (a : Action) (h' : Handler) : Prop := h.step a = some h'

@[simp] theorem when_eq_some_iff {guard : Bool} {h h' : Handler} :
    when guard h = some h' ↔ guard = true ∧ h = h' := by
  cases guard <;> simp [when]

theorem step_closeSent {h h' : Handler} (hs : h.step .closeSent = some h') :
    ∃ code, h.pc = .closing code ∧ h' = h.goto .closed := by
  simp only [step] at hs
  split at hs
  · rename_i code hpc
    exact ⟨code, hpc, (Option.some.inj hs).symm⟩
  · exact absurd hs (by simp)

/-- A run, computed. -/
def exec (h : Handler) : List Action → Option Handler
  | [] => some h
  | a :: as => (h.step a).bind fun h' => h'.exec as

theorem run_of_exec {as : List Action} : ∀ {h h' : Handler}, h.exec as = some h' →
    Transition.Run Step h as h' := by
  induction as with
  | nil => intro h h' he; cases he; exact .nil
  | cons a as ih =>
    intro h h' he
    obtain ⟨h₁, h₁s, hrest⟩ := Option.bind_eq_some_iff.mp he
    exact .cons h₁s (ih hrest)

end Handler

end LocateAnything.Stream
