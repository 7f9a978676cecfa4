import LocateAnything.Bridge.Geometry
import LocateAnything.Stream.Idle

/-!
# What follows the error of a self-exit

Four parties: the client, the handler of its WebSocket (`handle_ws`), the worker, which writes the
typed error of a timeout or an out-of-memory and then exits, and the supervisor of the container,
which sees the worker's exit and signals the server. The documents promise the client a
Close(1011) behind the typed error. No statement sends it there: the handler is back in its read
loop, and 1011 is what it closes with when it forwards one more Frame to a worker that does not
answer any more. Until then the supervisor's signal races with the client's next Frame.

What the client gets next is a field of the composed state, and a connection that ends without a
Close is an outcome of its own (`Delivery.lost`), so that a server killed in the meantime does not
pass for one that has kept the promise. `Good` and `Bad` are the two sides a run can be on, and
`OnTheWay` is what keeps it on the first: it speaks of where the call finds the handler, of what
the client sends, and of the server's staying alive, in the state in front of each step.

`self_exit_close_iff` says that this is exactly what it takes.
-/

set_option autoImplicit false

namespace LocateAnything.Stream.SelfExit

open Framing (Bytes)
open Edge (PendingFrame processBinary)
open Bridge (jobOf)
open Transition (Always Each Run)

/-- The worker, as far as this connection is concerned. -/
inductive Process where
  /-- Its task for the connection is in its loop. -/
  | serving
  /-- The task is in front of `_hard_exit_for_restart`. -/
  | exiting
  /-- The task has ended. -/
  | ended
  /-- The process is gone. -/
  | dead
  deriving DecidableEq

/-- What a client gets next, apart from control messages. -/
inductive Delivery where
  | text
  | close (code : Nat)
  /-- Nothing from the handler: the connection ends without its Close. The client has closed it or
      is gone, or the server has been killed. -/
  | lost
  deriving DecidableEq

structure Sys where
  handler : Handler
  /-- The Binary message in hand … -/
  message : Bytes
  /-- … and the Frame forwarded for it. -/
  frame : Option PendingFrame
  process : Process
  /-- The reply on the socket, by whether the worker exits behind it. -/
  reply : Option Bool
  /-- The same of the reply in the handler's hand. -/
  carried : Bool
  /-- The supervisor has sent SIGTERM to the server. -/
  terminated : Bool
  /-- History: the client has been sent the typed error of a self-exit … -/
  reported : Bool
  /-- … and this next. -/
  next : Option Delivery

inductive Event where
  /-- The handler goes on by itself, or time passes. -/
  | own (a : Action)
  /-- The handler takes up a Binary message. -/
  | receives (b : Bytes)
  | processes
  /-- `engine.run` has come to something, and the worker has written its reply. -/
  | engine (o : Worker.EngineOutcome)
  /-- The handler reads the reply. -/
  | infers
  /-- The worker exits, for this connection's sake or for another's. -/
  | workerExits
  /-- `wait -n` comes back, and the other child is sent SIGTERM. -/
  | supervises
  /-- The server takes the signal and calls `notify_waiters`. -/
  | notifies
  /-- The server ends, and its handlers with it. -/
  | killed

/-- The actions of a handler that nobody else has a part in. -/
def own : Action → Bool
  | .notifyWaiters | .binary | .accepted | .rejected | .fatal | .inferOk => false
  | _ => true

namespace Sys

def deliver (s : Sys) (d : Delivery) : Sys :=
  { s with next := if s.reported = true ∧ s.next = none then some d else s.next }

/-- The handler has taken the step `a` to `h`. -/
def after (s : Sys) (a : Action) (h : Handler) : Sys :=
  match a, s.handler.pc with
  | .rejectionSent, _ => { s with handler := h }.deliver .text
  | .replySent, _ =>
    { { s with handler := h }.deliver .text with reported := s.reported || s.carried }
  | .closeSent, .closing code => { s with handler := h }.deliver (.close code)
  | .gone, _ | .sendFailed, _ => { s with handler := h }.deliver .lost
  | _, _ => { s with handler := h }

/-- The task of the worker has written what the engine's outcome comes to. -/
def served (s : Sys) (sent : Worker.Sent) : Sys :=
  { s with
    reply := sent.doc.map fun _ => sent.exits
    process := if sent.exits then .exiting else if sent.doc.isSome then .serving else .ended }

variable (cfg : Edge.Config) (py : Worker.Python)

/-- **One step**, if it can be taken. -/
def step (s : Sys) : Event → Option Sys
  | .own a =>
    -- nobody accepts a connection once the worker is past serving
    if own a = true ∧ (a = .connected → s.process = .serving) then
      (s.handler.step a).map (s.after a)
    else none
  | .receives b => (s.handler.step .binary).map fun h => { s with handler := h, message := b }
  | .processes =>
    match processBinary cfg s.message with
    | .pending p => (s.handler.step .accepted).map fun h => { s with handler := h, frame := some p }
    | .perFrame _ _ => (s.handler.step .rejected).map fun h => { s with handler := h }
    | .fatalFraming _ => (s.handler.step .fatal).map fun h => { s with handler := h }
  | .engine o =>
    match s.frame with
    | some p =>
      -- one call for each Frame, and none behind an exit
      if s.handler.pc = .inferring ∧ s.process = .serving ∧ s.reply = none then
        some (s.served (Worker.send py (jobOf p).frame_id (Worker.inferReply (jobOf p) o)))
      else none
    | none => none
  | .infers =>
    match s.reply with
    | some exits =>
      (s.handler.step .inferOk).map fun h =>
        { s with handler := h, reply := none, carried := exits }
    | none => none
  -- `_hard_exit_for_restart`, behind the reply or behind that of another connection
  | .workerExits => if s.process = .dead then none else some { s with process := .dead }
  | .supervises => if s.process = .dead then some { s with terminated := true } else none
  | .notifies =>
    if s.terminated = true then
      (s.handler.step .notifyWaiters).map fun h => { s with handler := h }
    else none
  | .killed =>
    if s.terminated = true then
      some ({ s with handler := s.handler.goto .closed }.deliver .lost)
    else none

def Step (s : Sys) (e : Event) (s' : Sys) : Prop := s.step cfg py e = some s'

/-- Before the WebSocket is opened. -/
def start : Sys :=
  { handler := .start 0, message := [], frame := none, process := .serving, reply := none,
    carried := false, terminated := false, reported := false, next := none }

/-- **The condition**, on the state in front of a step and on what the step brings, while the typed
    error has been sent and nothing has followed it. The call must find the handler anywhere but in
    a `select!` whose first branch is still to be polled, or the Close with 1001 is the next thing
    it sends; the same happens if it comes in the middle of a poll that then finds nothing ready.
    The client must stay, and send nothing but Frames that are forwarded, since every other message
    has an answer of its own. And the server must live until the worker's silence is noticed. -/
def OnTheWay (s : Sys) (e : Event) : Prop :=
  s.reported = true → s.next = none →
    match e with
    | .notifies => s.handler.pc ≠ .selecting .first ∧ s.handler.pc ≠ .selecting .parked
    | .own .park => s.handler.notified = false
    | .receives b => ∃ p, processBinary cfg b = .pending p
    | .own .gone | .own .sendFailed | .killed => False
    | _ => True

end Sys

/-! ## What a step can do -/

section Steps
variable (cfg : Edge.Config) (py : Worker.Python)

/-- The steps, with what they ask of the handler and of the worker. -/
inductive Effect (s : Sys) : Event → Sys → Prop where
  | own {a : Action} {h : Handler} : own a = true → s.handler.Step a h →
    Effect s (.own a) (s.after a h)
  | receives {b : Bytes} {h : Handler} : s.handler.Step .binary h →
    Effect s (.receives b) { s with handler := h, message := b }
  | forwards {p : PendingFrame} {h : Handler} : processBinary cfg s.message = .pending p →
    s.handler.Step .accepted h → Effect s .processes { s with handler := h, frame := some p }
  | refuses {a : Action} {h : Handler} : (¬ ∃ p, processBinary cfg s.message = .pending p) →
    a = .rejected ∨ a = .fatal → s.handler.Step a h → Effect s .processes { s with handler := h }
  | serves {o : Worker.EngineOutcome} {sent : Worker.Sent} : s.handler.pc = .inferring →
    s.process = .serving → Effect s (.engine o) (s.served sent)
  | infers {exits : Bool} {h : Handler} : s.reply = some exits → s.handler.Step .inferOk h →
    Effect s .infers { s with handler := h, reply := none, carried := exits }
  | workerExits : Effect s .workerExits { s with process := .dead }
  | supervises : Effect s .supervises { s with terminated := true }
  | notifies {h : Handler} : s.handler.Step .notifyWaiters h →
    Effect s .notifies { s with handler := h }
  | killed :
    Effect s .killed (({ s with handler := s.handler.goto .closed } : Sys).deliver .lost)

variable {cfg py}

/-- `process_binary` decides which of the three steps of the handler it is. -/
theorem effect_of_processes {s s' : Sys} (hstep : s.Step cfg py .processes s') :
    Effect cfg s .processes s' := by
  unfold Sys.Step Sys.step at hstep
  dsimp only at hstep
  cases hp : processBinary cfg s.message with
  | pending p =>
    rw [hp] at hstep
    obtain ⟨h, hh, rfl⟩ := Option.map_eq_some_iff.mp hstep
    exact .forwards hp hh
  | perFrame frame_id fault =>
    rw [hp] at hstep
    obtain ⟨h, hh, rfl⟩ := Option.map_eq_some_iff.mp hstep
    exact .refuses (by simp [hp]) (.inl rfl) hh
  | fatalFraming fault =>
    rw [hp] at hstep
    obtain ⟨h, hh, rfl⟩ := Option.map_eq_some_iff.mp hstep
    exact .refuses (by simp [hp]) (.inr rfl) hh

/-- **Every step has one of these effects.** -/
theorem effect_of_step {s s' : Sys} {e : Event} (hstep : s.Step cfg py e s') :
    Effect cfg s e s' := by
  cases e with
  | processes => exact effect_of_processes hstep
  | own a =>
    obtain ⟨hown, hstep⟩ := Option.ite_none_right_eq_some.mp hstep
    obtain ⟨h, hh, rfl⟩ := Option.map_eq_some_iff.mp hstep
    exact .own hown.1 hh
  | receives b =>
    obtain ⟨h, hh, rfl⟩ := Option.map_eq_some_iff.mp hstep
    exact .receives hh
  | engine o =>
    unfold Sys.Step Sys.step at hstep
    dsimp only at hstep
    split at hstep
    · obtain ⟨hg, hstep⟩ := Option.ite_none_right_eq_some.mp hstep
      obtain rfl := Option.some.inj hstep
      exact .serves hg.1 hg.2.1
    · exact absurd hstep (by simp)
  | infers =>
    unfold Sys.Step Sys.step at hstep
    dsimp only at hstep
    split at hstep
    · rename_i exits hreply
      obtain ⟨h, hh, rfl⟩ := Option.map_eq_some_iff.mp hstep
      exact .infers hreply hh
    · exact absurd hstep (by simp)
  | workerExits =>
    obtain ⟨-, hstep⟩ := Option.ite_none_left_eq_some.mp hstep
    obtain rfl := Option.some.inj hstep
    exact .workerExits
  | supervises =>
    obtain ⟨-, hstep⟩ := Option.ite_none_right_eq_some.mp hstep
    obtain rfl := Option.some.inj hstep
    exact .supervises
  | notifies =>
    obtain ⟨-, hstep⟩ := Option.ite_none_right_eq_some.mp hstep
    obtain ⟨h, hh, rfl⟩ := Option.map_eq_some_iff.mp hstep
    exact .notifies hh
  | killed =>
    obtain ⟨-, hstep⟩ := Option.ite_none_right_eq_some.mp hstep
    obtain rfl := Option.some.inj hstep
    exact .killed

/-- The other direction, for a Frame that is forwarded. -/
theorem step_forwards {s : Sys} {p : PendingFrame}
    (hp : processBinary cfg s.message = .pending p) (hpc : s.handler.pc = .processing) :
    s.Step cfg py .processes
      { s with
        handler :=
          { s.handler with
            pc := .inferring, lateForward := s.handler.lateForward || s.handler.lateFrame }
        frame := some p } := by
  unfold Sys.Step Sys.step
  dsimp only
  rw [hp]
  dsimp only [Handler.step]
  rw [hpc]
  rfl

theorem Sys.deliver_eq_self {s : Sys} (d : Delivery) (h : ¬ (s.reported = true ∧ s.next = none)) :
    s.deliver d = s := by
  unfold Sys.deliver
  rw [if_neg h]

/-- The steps of a handler that the client gets something of, or by which it loses the connection. -/
def Telling : Action → Prop
  | .rejectionSent | .replySent | .closeSent | .gone | .sendFailed => True
  | _ => False

theorem Sys.after_of_silent {s : Sys} {a : Action} {h : Handler} (ha : ¬ Telling a) :
    s.after a h = { s with handler := h } := by
  unfold Sys.after
  split
  all_goals first | rfl | exact absurd trivial ha

theorem Sys.after_closeSent {s : Sys} {h : Handler} {code : Nat}
    (hpc : s.handler.pc = .closing code) :
    s.after .closeSent h = ({ s with handler := h } : Sys).deliver (.close code) := by
  unfold Sys.after
  rw [hpc]

@[simp] theorem Sys.deliver_handler (s : Sys) (d : Delivery) :
    (s.deliver d).handler = s.handler := rfl

theorem Sys.after_handler (s : Sys) (a : Action) (h : Handler) : (s.after a h).handler = h := by
  unfold Sys.after
  split <;> rfl

/-- Nobody keeps the handler's pings from being due before its deadline. -/
theorem pingFirst_step {s s' : Sys} {e : Event} (hs : s.handler.PingFirst)
    (hstep : s.Step cfg py e s') : s'.handler.PingFirst := by
  cases effect_of_step hstep with
  | own _ hh =>
    rw [Sys.after_handler]
    exact hs.step hh
  | receives hh | forwards _ hh | refuses _ _ hh | infers _ hh | notifies hh => exact hs.step hh
  | serves | workerExits | supervises => exact hs
  | killed => exact .of_not_selecting hs.ping_le (by simp [Handler.goto])

end Steps

/-! ## Towards 1011, and astray -/

section Sides
variable (cfg : Edge.Config)

/-- **The handler will close with 1011 or with nothing**: it polls for the client's next message or
    sends a ping, and has not been told of the shutdown where it would look; or it has a Frame in
    hand that the worker will not answer. `selecting .rest` is past the branch that would look. -/
def Ahead (message : Bytes) (h : Handler) : Prop :=
  match h.pc with
  | .selecting .rest | .pinging | .inferring => True
  | .selecting _ => h.notified = false
  | .processing => ∃ p, processBinary cfg message = .pending p
  | .closing code => code = closeServerError
  | _ => False

/-- **The handler will send something else than a Close(1011)**: it has been told of the shutdown
    and looks, or has a message in hand that has an answer, or is in another Close. -/
def Astray (message : Bytes) (h : Handler) : Prop :=
  match h.pc with
  | .selecting .rest => False
  | .selecting _ => h.notified = true
  | .processing => ¬ ∃ p, processBinary cfg message = .pending p
  | .closing code => code ≠ closeServerError
  | .rejecting => True
  | _ => False

/-- The typed error, if it has been sent, is followed by a Close(1011) or by nothing yet. -/
structure Good (s : Sys) : Prop where
  pings : s.handler.PingFirst
  /-- Behind the typed error the worker writes nothing more, … -/
  silent : s.reported = true → s.process ≠ .serving ∧ s.reply = none
  /-- … nor while it is on its way. -/
  owed : s.reply = some true ∨ (s.handler.pc = .replying ∧ s.carried = true) →
    s.process ≠ .serving
  consumed : s.handler.pc = .replying → s.reply = none
  fresh : s.reported = false → s.next = none
  ahead : s.reported = true → s.next = none → Ahead cfg s.message s.handler
  right : ∀ d, s.next = some d → d = .close closeServerError

/-- The typed error is followed by something else, or will be. -/
structure Bad (s : Sys) : Prop where
  reported : s.reported = true
  astray : s.next = none → Astray cfg s.message s.handler
  wrong : ∀ d, s.next = some d → d ≠ .close closeServerError

variable {cfg} {py : Worker.Python}

/-- By itself the handler stays on the way: the timeout of its `select!` never fires, and it does not
    park with a notification unread. -/
theorem Ahead.own {message : Bytes} {h h' : Handler} {a : Action} (hpc : Ahead cfg message h)
    (hpings : h.PingFirst) (ha : own a = true) (ht : ¬ Telling a)
    (hpark : a = .park → h.notified = false) (hstep : h.Step a h') : Ahead cfg message h' := by
  cases a with
  | notifyWaiters | binary | accepted | rejected | fatal | inferOk =>
    exact absurd ha Bool.false_ne_true
  | rejectionSent | replySent | closeSent | gone | sendFailed => exact absurd trivial ht
  | timeout => exact absurd (hpings.no_timeout.symm.trans hstep) (by simp)
  | elapse d =>
    obtain ⟨-, rfl⟩ := Handler.when_eq_some_iff.mp hstep
    exact hpc
  | opened | connected | connectFailed =>
    obtain ⟨hg, -⟩ := Handler.when_eq_some_iff.mp hstep
    simp only [Ahead, of_decide_eq_true hg] at hpc
  | inferErr =>
    obtain ⟨-, rfl⟩ := Handler.when_eq_some_iff.mp hstep
    exact (rfl : closeServerError = closeServerError)
  | pending | tick =>
    obtain ⟨-, rfl⟩ := Handler.when_eq_some_iff.mp hstep
    trivial
  | shutdown =>
    obtain ⟨hg, -⟩ := Handler.when_eq_some_iff.mp hstep
    simp only [Bool.and_eq_true, decide_eq_true_eq] at hg
    simp only [Ahead, hg.1] at hpc
    exact absurd (hg.2.symm.trans hpc) (by simp)
  | wake =>
    obtain ⟨hg, rfl⟩ := Handler.when_eq_some_iff.mp hstep
    simp only [Ahead, of_decide_eq_true hg] at hpc
    exact hpc
  | park =>
    obtain ⟨-, rfl⟩ := Handler.when_eq_some_iff.mp hstep
    exact hpark rfl
  | other | pingSent =>
    obtain ⟨-, rfl⟩ := Handler.when_eq_some_iff.mp hstep
    -- the `select!` is entered anew, and its future has not been notified
    exact (rfl : false = false)

/-- Astray, the handler stays so, short of telling the client. -/
theorem Astray.own {message : Bytes} {h h' : Handler} {a : Action} (hpc : Astray cfg message h)
    (ha : own a = true) (ht : ¬ Telling a) (hstep : h.Step a h') : Astray cfg message h' := by
  cases a with
  | notifyWaiters | binary | accepted | rejected | fatal | inferOk =>
    exact absurd ha Bool.false_ne_true
  | rejectionSent | replySent | closeSent | gone | sendFailed => exact absurd trivial ht
  | elapse d =>
    obtain ⟨-, rfl⟩ := Handler.when_eq_some_iff.mp hstep
    exact hpc
  | opened | connected | connectFailed | pingSent | inferErr =>
    obtain ⟨hg, -⟩ := Handler.when_eq_some_iff.mp hstep
    simp only [Astray, of_decide_eq_true hg] at hpc
  | shutdown =>
    obtain ⟨-, rfl⟩ := Handler.when_eq_some_iff.mp hstep
    exact (by decide : closeGoingAway ≠ closeServerError)
  | pending =>
    obtain ⟨hg, -⟩ := Handler.when_eq_some_iff.mp hstep
    simp only [Bool.and_eq_true, decide_eq_true_eq] at hg
    simp only [Astray, hg.1] at hpc
    exact absurd hg.2 (by simp [hpc])
  | wake =>
    obtain ⟨hg, rfl⟩ := Handler.when_eq_some_iff.mp hstep
    simp only [Astray, of_decide_eq_true hg] at hpc
    exact hpc
  | tick =>
    obtain ⟨hg, -⟩ := Handler.when_eq_some_iff.mp hstep
    simp only [Bool.and_eq_true, decide_eq_true_eq] at hg
    simp only [Astray, hg.1] at hpc
  | other =>
    obtain ⟨hg, -⟩ := Handler.when_eq_some_iff.mp hstep
    simp only [Astray, (Handler.readsNext_iff.mp hg).1] at hpc
  | timeout | park =>
    obtain ⟨hg, -⟩ := Handler.when_eq_some_iff.mp hstep
    simp only [Astray, (Handler.readsNext_iff.mp (Bool.and_eq_true_iff.mp hg).1).1] at hpc

/-- The call changes nothing for a handler outside a `select!` that would look. -/
theorem Ahead.notifyWaiters {message : Bytes} {h h' : Handler} (hpc : Ahead cfg message h)
    (hfirst : h.pc ≠ .selecting .first) (hparked : h.pc ≠ .selecting .parked)
    (hstep : h.Step .notifyWaiters h') : Ahead cfg message h' := by
  obtain rfl := Option.some.inj hstep
  cases hp : h.pc with
  | selecting poll =>
    cases poll with
    | first => exact absurd hp hfirst
    | parked => exact absurd hp hparked
    | rest => trivial
  | unopened | connecting | pinging | processing | rejecting | inferring | replying | closing code
  | closed =>
    unfold Ahead at hpc ⊢
    rw [hp] at hpc
    exact hpc

theorem Astray.notifyWaiters {message : Bytes} {h h' : Handler} (hpc : Astray cfg message h)
    (hstep : h.Step .notifyWaiters h') : Astray cfg message h' := by
  obtain rfl := Option.some.inj hstep
  cases hp : h.pc with
  | selecting poll =>
    cases poll with
    | first | parked =>
      simp only [Astray, hp] at hpc ⊢
      rw [hpc, Bool.true_or]
    | rest => simp only [Astray, hp] at hpc
  | unopened | connecting | pinging | processing | rejecting | inferring | replying | closing code
  | closed =>
    unfold Astray at hpc ⊢
    rw [hp] at hpc
    exact hpc

/-- By itself the handler comes by no reply. -/
theorem replying_of_own {h h' : Handler} {a : Action} (ha : own a = true) (hstep : h.Step a h')
    (hpc : h'.pc = .replying) : h.pc = .replying := by
  cases a with
  | notifyWaiters | binary | accepted | rejected | fatal | inferOk =>
    exact absurd ha Bool.false_ne_true
  | elapse d =>
    obtain ⟨-, rfl⟩ := Handler.when_eq_some_iff.mp hstep
    exact hpc
  | closeSent =>
    obtain ⟨-, -, rfl⟩ := Handler.step_closeSent hstep
    exact absurd hpc (by simp [Handler.goto])
  | opened | connected | connectFailed | wake | shutdown | pending | tick | other | gone | timeout
  | park | pingSent | rejectionSent | inferErr | replySent | sendFailed =>
    obtain ⟨-, rfl⟩ := Handler.when_eq_some_iff.mp hstep
    exact absurd hpc (by simp [Handler.goto, Handler.enter, Handler.select, Handler.leave])

/-! ### On the way -/

theorem Good.moves {s : Sys} (hs : Good cfg s) {h : Handler} {message : Bytes}
    {frame : Option PendingFrame} (hpings : h.PingFirst)
    (hreply : h.pc = .replying → s.handler.pc = .replying)
    (hahead : s.reported = true → s.next = none → Ahead cfg message h) :
    Good cfg { s with handler := h, message, frame } where
  pings := hpings
  silent := hs.silent
  owed := fun h => hs.owed (h.imp_right fun hc => ⟨hreply hc.1, hc.2⟩)
  consumed := fun h => hs.consumed (hreply h)
  fresh := hs.fresh
  ahead := hahead
  right := hs.right

/-- Behind the typed error nothing is sent off the way. -/
theorem Good.not_open {s : Sys} (hs : Good cfg s) (hpc : ¬ Ahead cfg s.message s.handler) :
    ¬ (s.reported = true ∧ s.next = none) :=
  fun h => hpc (hs.ahead h.1 h.2)

/-- A worker that still serves has not written the typed error. -/
theorem Good.not_reported_of_serving {s : Sys} (hs : Good cfg s) (h : s.process = .serving) :
    s.reported = false := by
  cases hr : s.reported with
  | false => rfl
  | true => exact absurd h (hs.silent hr).1

theorem Good.not_reported_of_reply {s : Sys} (hs : Good cfg s) {exits : Bool}
    (h : s.reply = some exits) : s.reported = false := by
  cases hr : s.reported with
  | false => rfl
  | true => exact absurd ((hs.silent hr).2.symm.trans h) (by simp)

/-- A reply has been sent; if it was the typed error, the worker is through. -/
theorem Good.replySent {s : Sys} (hs : Good cfg s) (hpc : s.handler.pc = .replying) :
    Good cfg { s with handler := s.handler.enter, reported := s.reported || s.carried } := by
  have hreply := hs.consumed hpc
  refine ⟨.enter hs.pings.ping_le, ?_, ?_, fun _ => hreply, ?_, fun _ _ => ?_, hs.right⟩
  · intro hor
    refine ⟨?_, hreply⟩
    rcases Bool.or_eq_true_iff.mp hor with hr | hc
    · exact (hs.silent hr).1
    · exact hs.owed (.inr ⟨hpc, hc⟩)
  · rintro (hsome | ⟨hpc', -⟩)
    · exact absurd (hreply.symm.trans hsome) (by simp)
    · exact absurd hpc' (by simp [Handler.enter, Handler.select])
  · intro hor
    exact hs.fresh (Bool.or_eq_false_iff.mp hor).1
  · exact (rfl : false = false)

/-- The client is told something: if it is what comes next, it must be a Close(1011). -/
theorem Good.tell {s : Sys} (hs : Good cfg s) {h : Handler} {d : Delivery} (hpings : h.PingFirst)
    (hreply : h.pc = .replying → s.handler.pc = .replying)
    (hd : s.reported = true → s.next = none → d = .close closeServerError) :
    Good cfg (({ s with handler := h } : Sys).deliver d) := by
  have howed : ∀ {reply carried}, s.reply = reply → s.carried = carried →
      reply = some true ∨ (h.pc = .replying ∧ carried = true) → s.process ≠ .serving := by
    rintro _ _ rfl rfl hor
    exact hs.owed (hor.imp_right fun hc => ⟨hreply hc.1, hc.2⟩)
  by_cases hopen : s.reported = true ∧ s.next = none
  · unfold Sys.deliver
    rw [if_pos hopen]
    refine ⟨hpings, hs.silent, howed rfl rfl, fun h => hs.consumed (hreply h), ?_, ?_, ?_⟩
    · intro hr
      exact absurd (hopen.1.symm.trans hr) (by simp)
    · intro _ hn
      exact absurd hn (by simp)
    · intro d' hd'
      rw [← Option.some.inj hd', hd hopen.1 hopen.2]
  · rw [Sys.deliver_eq_self d (by exact hopen)]
    exact ⟨hpings, hs.silent, howed rfl rfl, fun h => hs.consumed (hreply h), hs.fresh,
      fun hr hn => absurd ⟨hr, hn⟩ hopen, hs.right⟩

/-- The handler goes on by itself, telling the client. -/
theorem Good.telling {s : Sys} {a : Action} {h : Handler} (hs : Good cfg s) (hown : own a = true)
    (ht : Telling a) (hh : s.handler.Step a h) (hway : s.OnTheWay cfg (.own a)) :
    Good cfg (s.after a h) := by
  have hpings := hs.pings.step hh
  have hreply := replying_of_own hown hh
  -- where nothing may be sent, the condition on what is sent is void
  have hvoid : ∀ {d : Delivery}, ¬ Ahead cfg s.message s.handler →
      s.reported = true → s.next = none → d = .close closeServerError :=
    fun hpc hr hn => absurd ⟨hr, hn⟩ (hs.not_open hpc)
  cases a with
  | rejectionSent =>
    obtain ⟨hg, -⟩ := Handler.when_eq_some_iff.mp hh
    exact hs.tell hpings hreply (hvoid (by simp [Ahead, of_decide_eq_true hg]))
  | replySent =>
    obtain ⟨hg, rfl⟩ := Handler.when_eq_some_iff.mp hh
    have hpc : s.handler.pc = .replying := of_decide_eq_true hg
    show Good cfg { ({ s with handler := s.handler.enter } : Sys).deliver .text with
      reported := s.reported || s.carried }
    rw [Sys.deliver_eq_self .text (by exact hs.not_open (by simp [Ahead, hpc]))]
    exact hs.replySent hpc
  | closeSent =>
    obtain ⟨code, hpc, -⟩ := Handler.step_closeSent hh
    rw [Sys.after_closeSent hpc]
    apply hs.tell hpings hreply
    intro hr hn
    have hahead := hs.ahead hr hn
    simp only [Ahead, hpc] at hahead
    rw [hahead]
  | gone | sendFailed => exact hs.tell hpings hreply fun hr hn => (hway hr hn).elim
  | _ => exact ht.elim

/-- The handler goes on by itself. -/
theorem Good.own {s : Sys} {a : Action} {h : Handler} (hs : Good cfg s) (hown : own a = true)
    (hh : s.handler.Step a h) (hway : s.OnTheWay cfg (.own a)) : Good cfg (s.after a h) := by
  by_cases ht : Telling a
  · exact hs.telling hown ht hh hway
  · rw [Sys.after_of_silent ht]
    apply hs.moves (hs.pings.step hh) (replying_of_own hown hh)
    intro hr hn
    refine (hs.ahead hr hn).own hs.pings hown ht ?_ hh
    rintro rfl
    exact hway hr hn

theorem Good.served {s : Sys} (hs : Good cfg s) (hpc : s.handler.pc = .inferring)
    (hserving : s.process = .serving) (sent : Worker.Sent) : Good cfg (s.served sent) := by
  have hreported := hs.not_reported_of_serving hserving
  refine ⟨hs.pings, ?_, ?_, ?_, hs.fresh, ?_, hs.right⟩
  · intro hr
    exact absurd (hreported.symm.trans hr) (by simp)
  · rintro (hsome | ⟨hpc', -⟩)
    · obtain ⟨doc, -, hexits⟩ := Option.map_eq_some_iff.mp hsome
      show (if sent.exits = true then Process.exiting else _) ≠ .serving
      rw [if_pos hexits]
      simp
    · exact absurd (hpc.symm.trans hpc') (by simp)
  · intro hpc'
    exact absurd (hpc.symm.trans hpc') (by simp)
  · intro hr
    exact absurd (hreported.symm.trans hr) (by simp)

theorem Good.infers {s : Sys} (hs : Good cfg s) {exits : Bool} {h : Handler}
    (hreply : s.reply = some exits) (hpings : h.PingFirst) :
    Good cfg { s with handler := h, reply := none, carried := exits } := by
  have hreported := hs.not_reported_of_reply hreply
  refine ⟨hpings, ?_, ?_, fun _ => rfl, hs.fresh, ?_, hs.right⟩
  · intro hr
    exact absurd (hreported.symm.trans hr) (by simp)
  · rintro (hsome | ⟨-, hcarried⟩)
    · exact absurd hsome (by simp)
    · obtain rfl : exits = true := hcarried
      exact hs.owed (.inl hreply)
  · intro hr
    exact absurd (hreported.symm.trans hr) (by simp)

/-- **On the way, a step keeps what is sent behind the typed error right.** -/
theorem good_step {s s' : Sys} {e : Event} (hs : Good cfg s) (hway : s.OnTheWay cfg e)
    (hstep : s.Step cfg py e s') : Good cfg s' := by
  have hpings := pingFirst_step hs.pings hstep
  cases effect_of_step hstep with
  | own hown hh => exact hs.own hown hh hway
  | @receives b h hh =>
    obtain ⟨-, rfl⟩ := Handler.when_eq_some_iff.mp hh
    apply hs.moves hpings
    · intro hpc
      exact absurd hpc (by simp [Handler.leave])
    · intro hr hn
      exact hway hr hn
  | forwards hp hh =>
    obtain ⟨-, rfl⟩ := Handler.when_eq_some_iff.mp hh
    apply hs.moves hpings
    · intro hpc
      exact absurd hpc (by simp)
    · intro _ _
      trivial
  | refuses hno ha hh =>
    -- what is in hand is a Frame to be forwarded
    have hopen : s.handler.pc = .processing → ¬ (s.reported = true ∧ s.next = none) := by
      intro hpc
      apply hs.not_open
      simpa only [Ahead, hpc] using hno
    rcases ha with rfl | rfl
    all_goals
      obtain ⟨hg, rfl⟩ := Handler.when_eq_some_iff.mp hh
      apply hs.moves hpings
      · intro hpc
        exact absurd hpc (by simp [Handler.goto])
      · intro hr hn
        exact absurd ⟨hr, hn⟩ (hopen (of_decide_eq_true hg))
  | serves hpc hserving => exact hs.served hpc hserving _
  | infers hreply hh => exact hs.infers hreply hpings
  | workerExits =>
    exact ⟨hs.pings, fun h => ⟨by simp, (hs.silent h).2⟩, fun _ => by simp, hs.consumed, hs.fresh,
      hs.ahead, hs.right⟩
  | supervises =>
    exact ⟨hs.pings, hs.silent, hs.owed, hs.consumed, hs.fresh, hs.ahead, hs.right⟩
  | notifies hh =>
    refine hs.moves hpings ?_ fun hr hn => ?_
    · obtain rfl := Option.some.inj hh
      exact id
    · obtain ⟨hfirst, hparked⟩ := hway hr hn
      exact (hs.ahead hr hn).notifyWaiters hfirst hparked hh
  | killed =>
    exact hs.tell (.of_not_selecting hs.pings.ping_le (by simp [Handler.goto]))
      (fun hpc => absurd hpc (by simp [Handler.goto])) fun hr hn => (hway hr hn).elim

/-! ### Astray -/

theorem Bad.moves {s : Sys} (hs : Bad cfg s) {h : Handler} {message : Bytes}
    {frame : Option PendingFrame} (hastray : s.next = none → Astray cfg message h) :
    Bad cfg { s with handler := h, message, frame } :=
  ⟨hs.reported, hastray, hs.wrong⟩

/-- The first thing the client is told behind the typed error is what counts. -/
theorem bad_of_deliver {s : Sys} {h : Handler} {d : Delivery} (hr : s.reported = true)
    (hd : s.next = none → d ≠ .close closeServerError)
    (hwrong : ∀ d, s.next = some d → d ≠ .close closeServerError) :
    Bad cfg (({ s with handler := h } : Sys).deliver d) := by
  by_cases hnext : s.next = none
  · unfold Sys.deliver
    rw [if_pos ⟨hr, hnext⟩]
    refine ⟨hr, fun h => absurd h (by simp), ?_⟩
    intro d' hd'
    rw [← Option.some.inj hd']
    exact hd hnext
  · rw [Sys.deliver_eq_self]
    · exact ⟨hr, fun h => absurd h hnext, hwrong⟩
    · exact fun h => hnext h.2

theorem Bad.deliver {s : Sys} (hs : Bad cfg s) {h : Handler} {d : Delivery}
    (hd : s.next = none → d ≠ .close closeServerError) :
    Bad cfg (({ s with handler := h } : Sys).deliver d) :=
  bad_of_deliver hs.reported hd hs.wrong

/-- **Off the way, a step leads astray.** -/
theorem bad_of_off {s s' : Sys} {e : Event} (hoff : ¬ s.OnTheWay cfg e)
    (hstep : s.Step cfg py e s') : Bad cfg s' := by
  unfold Sys.OnTheWay at hoff
  obtain ⟨hreported, hoff⟩ := Classical.not_imp.mp hoff
  obtain ⟨hnext, hoff⟩ := Classical.not_imp.mp hoff
  have hwrong : ∀ d, s.next = some d → d ≠ .close closeServerError := by
    intro d hd
    exact absurd (hnext.symm.trans hd) (by simp)
  cases effect_of_step hstep with
  | @own a h hown hh =>
    cases a with
    | park =>
      obtain ⟨-, rfl⟩ := Handler.when_eq_some_iff.mp hh
      exact ⟨hreported, fun _ => Bool.eq_true_of_not_eq_false hoff, hwrong⟩
    | gone | sendFailed => exact bad_of_deliver hreported (fun _ => by simp) hwrong
    | _ => exact absurd trivial hoff
  | @receives b h hh =>
    obtain ⟨-, rfl⟩ := Handler.when_eq_some_iff.mp hh
    exact ⟨hreported, fun _ => hoff, hwrong⟩
  | notifies hh =>
    obtain rfl := Option.some.inj hh
    refine ⟨hreported, fun _ => ?_, hwrong⟩
    have hpc : s.handler.pc = .selecting .first ∨ s.handler.pc = .selecting .parked := by
      rw [or_iff_not_imp_left]
      intro hfirst
      by_contra hparked
      exact hoff ⟨hfirst, hparked⟩
    rcases hpc with hpc | hpc <;> simp [Astray, hpc, Handler.selects]
  | killed => exact bad_of_deliver hreported (fun _ => by simp) hwrong
  | forwards | refuses | serves | infers | workerExits | supervises => exact absurd trivial hoff

/-- The handler goes on by itself. -/
theorem Bad.own {s : Sys} {a : Action} {h : Handler} (hs : Bad cfg s) (hown : own a = true)
    (hh : s.handler.Step a h) : Bad cfg (s.after a h) := by
  by_cases ht : Telling a
  · cases a with
    | rejectionSent => exact hs.deliver fun _ => by simp
    | replySent =>
      have hsent : Bad cfg (({ s with handler := h } : Sys).deliver .text) :=
        hs.deliver fun _ => by simp
      refine ⟨?_, hsent.astray, hsent.wrong⟩
      show (s.reported || s.carried) = true
      rw [hs.reported, Bool.true_or]
    | closeSent =>
      obtain ⟨code, hpc, -⟩ := Handler.step_closeSent hh
      rw [Sys.after_closeSent hpc]
      apply hs.deliver
      intro hn hcode
      have hastray := hs.astray hn
      simp only [Astray, hpc] at hastray
      exact hastray (Delivery.close.inj hcode)
    | gone | sendFailed => exact hs.deliver fun _ => by simp
    | _ => exact ht.elim
  · rw [Sys.after_of_silent ht]
    exact hs.moves fun hn => (hs.astray hn).own hown ht hh

/-- **Astray, there is no way back.** -/
theorem bad_step {s s' : Sys} {e : Event} (hs : Bad cfg s) (hstep : s.Step cfg py e s') :
    Bad cfg s' := by
  cases effect_of_step hstep with
  | own hown hh => exact hs.own hown hh
  | receives hh =>
    obtain ⟨hg, rfl⟩ := Handler.when_eq_some_iff.mp hh
    apply hs.moves
    intro hn
    have hastray := hs.astray hn
    simp only [Astray, (Handler.readsNext_iff.mp hg).1] at hastray
  | @forwards p h hp hh =>
    obtain ⟨hg, rfl⟩ := Handler.when_eq_some_iff.mp hh
    apply hs.moves
    intro hn
    have hastray := hs.astray hn
    simp only [Astray, of_decide_eq_true hg] at hastray
    exact absurd ⟨p, hp⟩ hastray
  | refuses _ ha hh =>
    rcases ha with rfl | rfl
    · obtain ⟨-, rfl⟩ := Handler.when_eq_some_iff.mp hh
      exact hs.moves fun _ => trivial
    · obtain ⟨-, rfl⟩ := Handler.when_eq_some_iff.mp hh
      exact hs.moves fun _ => (by decide : closePolicyViolation ≠ closeServerError)
  | infers _ hh =>
    obtain ⟨hg, rfl⟩ := Handler.when_eq_some_iff.mp hh
    refine ⟨hs.reported, fun hn => ?_, hs.wrong⟩
    have hastray := hs.astray hn
    simp only [Astray, of_decide_eq_true hg] at hastray
  | serves | workerExits | supervises => exact ⟨hs.reported, hs.astray, hs.wrong⟩
  | notifies hh => exact hs.moves fun hn => (hs.astray hn).notifyWaiters hh
  | killed => exact hs.deliver fun _ => by simp

/-- A connection does not end behind the typed error without something having come next. -/
theorem Good.of_closed {s : Sys} (hs : Good cfg s) (hr : s.reported = true)
    (hpc : s.handler.pc = .closed) : s.next = some (.close closeServerError) := by
  cases hnext : s.next with
  | none =>
    have hahead := hs.ahead hr hnext
    simp only [Ahead, hpc] at hahead
  | some d => rw [hs.right d hnext]

theorem good_start : Good cfg Sys.start where
  pings := Handler.pingFirst_start 0
  silent := fun h => absurd h (by simp [Sys.start])
  owed := fun h => absurd h (by simp [Sys.start, Handler.start])
  consumed := fun _ => rfl
  fresh := fun _ => rfl
  ahead := fun h => absurd h (by simp [Sys.start])
  right := fun _ h => absurd h (by simp [Sys.start])

end Sides

/-- **What follows the typed error of a self-exit.** In every run whose steps are all on the way,
    nothing but a Close(1011) comes next, in any state, and a connection that has ended has ended
    with it. And in every run after which the client has got something behind the typed error, or
    its connection has ended, that something is a Close(1011) exactly if every step of the run was
    on the way. -/
theorem self_exit_close_iff (cfg : Edge.Config) (py : Worker.Python) (es : List Event) :
    (Each (Sys.Step cfg py) (Sys.OnTheWay cfg) .start es →
      Always (Sys.Step cfg py)
        (fun s => (∀ d, s.next = some d → d = .close closeServerError) ∧
          (s.reported = true → s.handler.pc = .closed → s.next = some (.close closeServerError)))
        .start es) ∧
    ∀ s, Run (Sys.Step cfg py) .start es s →
      (s.next ≠ none ∨ s.reported = true ∧ s.handler.pc = .closed) →
      (s.next = some (.close closeServerError) ↔
        Each (Sys.Step cfg py) (Sys.OnTheWay cfg) .start es) := by
  have hgood : ∀ s e s', Good cfg s → s.OnTheWay cfg e → s.Step cfg py e s' → Good cfg s' :=
    fun s e s' hs hway hstep => good_step hs hway hstep
  constructor
  · intro heach
    exact (Transition.always_of_each hgood es good_start heach).mono fun s hs =>
      ⟨hs.right, hs.of_closed⟩
  · intro s hrun hend
    have hdet : ∀ s e s' s'', Sys.Step cfg py s e s' → Sys.Step cfg py s e s'' → s' = s'' :=
      fun s e s' s'' h h' => Option.some.inj (h.symm.trans h')
    have hfork :=
      hrun.fork hdet hgood (fun _ _ _ _ => bad_of_off) (fun _ _ _ => bad_step) good_start
    rcases hfork with ⟨heach, hs⟩ | ⟨heach, hs⟩
    · refine iff_of_true ?_ heach
      rcases hend with hnext | ⟨hr, hpc⟩
      · obtain ⟨d, hd⟩ := Option.ne_none_iff_exists'.mp hnext
        rw [hd, hs.right d hd]
      · exact hs.of_closed hr hpc
    · exact iff_of_false (fun hnext => hs.wrong _ hnext rfl) heach

/-! ## Two runs -/

/-- A Frame is read and forwarded, the call runs out of memory, and the client is told. -/
def outOfMemory (b : Bytes) : List Event :=
  [.own .opened, .own .connected, .own .pending, .receives b, .processes,
   .engine (.error (.outOfMemory [])), .infers, .own .replySent]

/-- The client waits: the worker's exit makes the supervisor signal the server. -/
def shutDown : List Event :=
  [.own .pending, .own .park, .workerExits, .supervises, .notifies, .own .wake, .own .shutdown,
   .own .closeSent]

/-- The client sends the next Frame at once. -/
def nextFrame (b : Bytes) : List Event :=
  [.own .pending, .receives b, .processes, .workerExits, .own .inferErr, .own .closeSent]

/-- The Frame of `processBinary_sample`. -/
def sampleFrame : Bytes :=
  Framing.encode (Edge.sampleText "f-1".toList Edge.sampleJpeg.length) ++ Edge.sampleJpeg

section Runs
variable {cfg : Edge.Config} {b : Bytes} {p : PendingFrame}

theorem run_shutDown (hp : processBinary cfg b = .pending p) :
    ∃ s, Run (Sys.Step cfg Worker.plainPython) .start (outOfMemory b ++ shutDown) s ∧
      s.process = .dead ∧ s.reported = true ∧ s.next = some (.close closeGoingAway) :=
  ⟨_, .cons rfl (.cons rfl (.cons rfl (.cons rfl (.cons (step_forwards hp rfl) (.cons rfl
    (.cons rfl (.cons rfl (.cons rfl (.cons rfl (.cons rfl (.cons rfl (.cons rfl (.cons rfl
    (.cons rfl (.cons rfl .nil))))))))))))))), rfl, rfl, rfl⟩

theorem run_nextFrame (hp : processBinary cfg b = .pending p) :
    ∃ s, Run (Sys.Step cfg Worker.plainPython) .start (outOfMemory b ++ nextFrame b) s ∧
      s.next = some (.close closeServerError) :=
  ⟨_, .cons rfl (.cons rfl (.cons rfl (.cons rfl (.cons (step_forwards hp rfl) (.cons rfl
    (.cons rfl (.cons rfl (.cons rfl (.cons rfl (.cons (step_forwards hp rfl) (.cons rfl
    (.cons rfl (.cons rfl .nil))))))))))))), rfl⟩

end Runs

/-- The next Frame meets a worker that is gone, and every step was on the way. -/
theorem self_exit_close_iff_sample :
    Each (Sys.Step (Edge.sampleConfig "f-1".toList) Worker.plainPython)
      (Sys.OnTheWay (Edge.sampleConfig "f-1".toList)) .start
      (outOfMemory sampleFrame ++ nextFrame sampleFrame) := by
  obtain ⟨s, hrun, hnext⟩ := run_nextFrame Bridge.processBinary_sample
  exact ((self_exit_close_iff _ _ _).2 s hrun (.inl (by simp [hnext]))).mp hnext

/-- **The client waits, and is sent a Close(1001).** -/
theorem self_exit_closes_going_away :
    ∃ s, Run (Sys.Step (Edge.sampleConfig "f-1".toList) Worker.plainPython) .start
        (outOfMemory sampleFrame ++ shutDown) s ∧
      s.process = .dead ∧ s.reported = true ∧ s.next = some (.close closeGoingAway) :=
  run_shutDown Bridge.processBinary_sample

end LocateAnything.Stream.SelfExit
