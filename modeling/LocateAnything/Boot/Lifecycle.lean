import LocateAnything.Boot.Container

/-!
# What holds of every run of a container

`entrypoint.sh` promises four things in its header: the worker publishes its socket before
clients can connect, the end of either child ends the other and gives the exit code, signals
are forwarded, and a worker that fails to start is no success. What holds of them is in
`Promises`; here is the invariant they rest on, over all interleavings of the three processes
and whatever signals reach them.

## Why the invariant is split

The children move without the script and the script without them, and there are about as many
places in each. An invariant of the container as a whole would meet every pair. So it is split
along the processes. `Boots` ties the socket and the server to what the worker has behind it,
and does not mention the script. `Stage` and `Clock` say what each statement of the script can
count on, and are stable under every move of a child (`ChildMove`): that a child may end at
any point of the script costs nothing once this is shown, and a statement of the script has to
be looked at only when it is the one that steps.

## The accounts of time

`Clock` is what makes the five seconds a bound. The script does not measure time, it counts
rounds; so the invariant is an equation: from `wait -n` on, the time that has passed since the
first end is fixed by the rounds that are left. It holds because, with a child gone, time
passes in `sleep` and nowhere else (`mayElapse`), and because a signal that arrives behind
`wait -n` is trapped without starting the loop anew. `Looked` bounds the probes of the server
by an account of the same kind.

`Argued` is apart from all of this. It remembers what the server has made of its arguments: that
the clock could hold its deadline, and that its listener is open only on an address it could
parse. `Boots` cannot know: it speaks of what the server has found, and the arguments are between
the server and its environment.
-/

set_option autoImplicit false

namespace LocateAnything.Boot

open Transition
open Worker

/-! ## Moves of a child -/

/-- The process has been told to stop, or has ended. Once it is, the polling loop may count on
    its leaving, since nothing takes it back into service. -/
def WorkerPc.stopping : WorkerPc → Bool
  | serving stop => stop
  | closing | draining | leaving | exited _ => true
  | _ => false

/-- The same of the server. It may be serving still, with the stop already noted. -/
def ServerPc.stopped : ServerPc → Bool
  | serving stop => stop
  | stopping | flushing _ | exited _ => true
  | _ => false

/-- Behind `wait -n`: a child has ended and the script is on its way to the exit. -/
def SupervisorPc.ending : SupervisorPc → Bool
  | terminating _ | polling _ _ | sleeping _ _ _ | killing _ | leaving _ => true
  | _ => false

/-- What no move of the worker undoes: it is started by the script alone, has ended for good,
    and does not forget that it was told to stop. The script's stages rest on these three and
    on nothing else about the worker, so a change of the worker's own steps leaves them alone.
    -/
structure WorkerPc.Later (pc pc' : WorkerPc) : Prop where
  unborn : pc = .unborn ↔ pc' = .unborn
  gone : pc.gone = true → pc' = pc
  stopping : pc.stopping = true → pc'.stopping = true

structure ServerPc.Later (pc pc' : ServerPc) : Prop where
  unborn : pc = .unborn ↔ pc' = .unborn
  gone : pc.gone = true → pc' = pc
  stopped : pc.stopped = true → pc'.stopped = true

theorem WorkerPc.Later.refl (pc : WorkerPc) : pc.Later pc := ⟨Iff.rfl, fun _ => rfl, id⟩

theorem ServerPc.Later.refl (pc : ServerPc) : pc.Later pc := ⟨Iff.rfl, fun _ => rfl, id⟩

/-- A signal is a move as well; which state it leads to is in `signal`, that it undoes nothing
    is all that is needed here. -/
theorem WorkerPc.later_signal (pc : WorkerPc) (s : Sig) : pc.Later (pc.signal s) := by
  cases pc <;> cases s <;> constructor <;> simp [signal, gone, stopping]

theorem ServerPc.later_signal (pc : ServerPc) (s : Sig) : pc.Later (pc.signal s) := by
  cases pc <;> cases s <;> constructor <;> simp [signal, gone, stopped]

/-- SIGKILL ends a process wherever it is. The script's last resort rests on it. -/
theorem WorkerPc.signal_kill_gone {pc : WorkerPc} (h : pc ≠ .unborn) :
    (pc.signal .kill).gone = true := by
  cases pc <;> simp_all [signal, gone]

theorem ServerPc.signal_kill_gone {pc : ServerPc} (h : pc ≠ .unborn) :
    (pc.signal .kill).gone = true := by
  cases pc <;> simp_all [signal, gone]

/-- SIGTERM is never lost: a worker without its handler yet dies of it, one with a handler
    notes it. -/
theorem WorkerPc.signal_term_stopping {pc : WorkerPc} (h : pc ≠ .unborn) :
    (pc.signal .term).stopping = true := by
  cases pc <;> simp_all [signal, stopping]

theorem ServerPc.signal_term_stopped {pc : ServerPc} (h : pc ≠ .unborn) :
    (pc.signal .term).stopped = true := by
  cases pc <;> simp_all [signal, stopped]

/-- Most steps go from one place of a living process to another, and then only the stop needs
    a look. -/
theorem WorkerPc.Later.next {pc pc' : WorkerPc} (hb : pc ≠ .unborn) (hg : pc.gone = false)
    (hb' : pc' ≠ .unborn) (hs : pc.stopping = true → pc'.stopping = true) : pc.Later pc' :=
  ⟨iff_of_false hb hb', fun h => absurd h (by simp [hg]), hs⟩

theorem ServerPc.Later.next {pc pc' : ServerPc} (hb : pc ≠ .unborn) (hg : pc.gone = false)
    (hb' : pc' ≠ .unborn) (hs : pc.stopped = true → pc'.stopped = true) : pc.Later pc' :=
  ⟨iff_of_false hb hb', fun h => absurd h (by simp [hg]), hs⟩

namespace Container

variable {S : Setup} {c c' : Container}

@[simp] theorem when_eq_some_iff {guard : Bool} {d : Container} :
    when guard d = some c' ↔ guard = true ∧ d = c' := by
  cases guard <;> simp [when]

/-- What a step of a child leaves of the rest: the script's place, the time and the trapped
    signals are untouched, and both children are later than they were. `due`, the time of the
    first end, is set by the first child that ends and by no other, which is what `marked` and
    `due` say together. -/
structure ChildMove (c c' : Container) : Prop where
  supervisor : c'.supervisor = c.supervisor
  now : c'.now = c.now
  trapped : c'.trapped = c.trapped
  worker : c.worker.Later c'.worker
  server : c.server.Later c'.server
  due : c'.due = c.due ∨ c'.due = c.mark ∧ (c'.worker.gone = true ∨ c'.server.gone = true)
  marked : c'.worker.gone = true ∨ c'.server.gone = true →
    c.worker.gone = true ∨ c.server.gone = true ∨ c'.due = c.mark

theorem ChildMove.moveWorker {pc : WorkerPc} (h : c.worker.Later pc) :
    ChildMove c (c.moveWorker pc) where
  supervisor := rfl
  now := rfl
  trapped := rfl
  worker := h
  server := .refl _
  due := by cases hg : pc.gone <;> simp [Container.moveWorker, hg]
  marked := by cases hg : pc.gone <;> simp +contextual [Container.moveWorker, hg]

theorem ChildMove.moveServer {pc : ServerPc} (h : c.server.Later pc) :
    ChildMove c (c.moveServer pc) where
  supervisor := rfl
  now := rfl
  trapped := rfl
  worker := .refl _
  server := h
  due := by cases hg : pc.gone <;> simp [Container.moveServer, hg]
  marked := by cases hg : pc.gone <;> simp +contextual [Container.moveServer, hg]

/-- The socket, and what is only counted, is the child's own. -/
theorem ChildMove.with (h : ChildMove c c') (socket : Socket) (listened : Bool) (probes : Nat) :
    ChildMove c { c' with socket := socket, listened := listened, probes := probes } :=
  ⟨h.1, h.2, h.3, h.4, h.5, h.6, h.7⟩

/-! ## Readiness -/

end Container

/-- All the worker does before it listens has come out well: the two variables that have to be
    numbers, the startup checks, the second look at the checkpoint files, and the calibration
    runs. -/
structure Ready (S : Setup) : Prop where
  timeout : S.isFloat
    ((S.machine.environ "LA_INFERENCE_TIMEOUT_S".toList).getD "600".toList) = true
  runs : (S.integer
    ((S.machine.environ "LA_CALIBRATION_RUNS".toList).getD "6".toList)).isSome = true
  fit : Fit S.sha256 S.py S.constants S.machine
  recheck : ∃ entries, S.recheck = some entries ∧ Verified S.sha256 entries
  calibrated : ∃ r, S.calibrate = .ok r

theorem calibration_runs_isSome_iff {S : Setup} : S.calibration_runs.isSome = true ↔
    S.isFloat ((S.machine.environ "LA_INFERENCE_TIMEOUT_S".toList).getD "600".toList) = true ∧
      (S.integer
        ((S.machine.environ "LA_CALIBRATION_RUNS".toList).getD "6".toList)).isSome = true := by
  rw [Setup.calibration_runs]
  split <;> simp_all

/-- What the worker has behind it at each place. Up to `binding` it is what has been checked;
    from `listening` on the one fact that counts, that it has listened, because `Boots.ready`
    leads from there back to all the checks. A worker that exits with 0 has listened. -/
def Earned (S : Setup) (listened : Bool) : WorkerPc → Prop
  | .unborn | .validating => True
  | .loading => S.calibration_runs.isSome = true ∧ Fit S.sha256 S.py S.constants S.machine
  | .calibrating =>
    (S.calibration_runs.isSome = true ∧ Fit S.sha256 S.py S.constants S.machine) ∧
      ∃ entries, S.recheck = some entries ∧ Verified S.sha256 entries
  | .unlinking | .binding => Ready S
  | .listening | .serving _ | .closing | .draining | .leaving => listened = true
  | .exited code => code = 0 → listened = true

/-- The server has found the worker. An exit with 0 counts, since the server leaves so only
    from serving. -/
def ServerPc.connected : ServerPc → Bool
  | binding | bound | serving _ | stopping | flushing _ => true
  | exited code => code = 0
  | _ => false

/-- The TCP listener of the server is open. -/
def ServerPc.listens : ServerPc → Bool
  | bound | serving _ => true
  | _ => false

/-- Behind `TcpListener::bind`, which has an address. It differs from `listens` in staying
    true when the listener closes, so that it is stable under every step but the bind itself.
    -/
def ServerPc.addressed : ServerPc → Bool
  | bound | serving _ | stopping | flushing _ => true
  | _ => false

/-- `wait_for_socket` has computed its deadline. -/
def ServerPc.timed : ServerPc → Bool
  | unborn | starting | exited _ => false
  | _ => true

theorem ServerPc.timed_of_signal {pc : ServerPc} {s : Sig} (h : (pc.signal s).timed = true) :
    pc.timed = true := by
  cases pc <;> cases s <;> first | exact h | rfl

theorem ServerPc.addressed_of_signal {pc : ServerPc} {s : Sig}
    (h : (pc.signal s).addressed = true) : pc.addressed = true := by
  cases pc <;> cases s <;> first | exact h | rfl

theorem Earned.signal {S : Setup} {listened : Bool} {pc : WorkerPc} (h : Earned S listened pc)
    (s : Sig) : Earned S listened (pc.signal s) := by
  cases pc <;> cases s <;> first | exact h | simp [WorkerPc.signal, Earned, Sig.status]

theorem ServerPc.connected_of_signal {pc : ServerPc} {s : Sig}
    (h : (pc.signal s).connected = true) : pc.connected = true := by
  cases pc <;> cases s <;> first | exact h | rfl

namespace Container

variable {S : Setup} {c c' : Container}

/-- **A live socket, and a server that has found one, speak for a worker that is ready.** A
    stale socket file of an earlier container is told apart from a live one: the worker
    unlinks it before it binds, and a connect to it fails. -/
structure Boots (S : Setup) (c : Container) : Prop where
  earned : Earned S c.listened c.worker
  ready : c.listened = true → Ready S
  live : c.socket = .live → c.worker.listens = true
  connected : c.server.connected = true → c.listened = true

/-- What the server learns from a successful connect. -/
theorem Boots.listened_of_live (h : Boots S c) (hl : c.socket = .live) : c.listened = true := by
  have he := h.earned
  have := h.live hl
  cases hpc : c.worker <;> rw [hpc] at he this <;>
    first | exact he | exact absurd this (by simp [WorkerPc.listens])

theorem Boots.moveWorker (h : Boots S c) {pc : WorkerPc} (he : Earned S c.listened pc) :
    Boots S (c.moveWorker pc) where
  earned := he
  ready := h.ready
  live := fun hl => by
    simp only [Container.moveWorker] at hl ⊢
    split at hl
    · assumption
    · cases hs : c.socket <;> simp [hs, Socket.close] at hl
  connected := h.connected

theorem Boots.moveServer (h : Boots S c) {pc : ServerPc}
    (hc : pc.connected = true → c.listened = true) : Boots S (c.moveServer pc) :=
  ⟨h.earned, h.ready, h.live, hc⟩

theorem Boots.signalBoth (h : Boots S c) (s : Sig) : Boots S (c.signalBoth s) :=
  (h.moveWorker (h.earned.signal s)).moveServer fun hc =>
    h.connected (ServerPc.connected_of_signal hc)

/-- A check of the worker's that fails ends it with a code that is not 0, of which nothing is
    claimed; so only the case where it succeeds is left. -/
theorem earned_proceed {ε α : Type} {x : Except ε α} {pc : WorkerPc} {listened : Bool}
    (h : ∀ a, x = .ok a → Earned S listened pc) : Earned S listened (proceed pc x) := by
  cases x with
  | error e => simp [proceed, Earned]
  | ok a => exact h a rfl

theorem later_proceed {ε α : Type} {x : Except ε α} {pc pc' : WorkerPc} (hb : pc ≠ .unborn)
    (hg : pc.gone = false) (hs : pc.stopping = false) (hb' : pc' ≠ .unborn) :
    pc.Later (proceed pc' x) := by
  constructor <;> cases x <;> simp [proceed, hb, hg, hs, hb']

/-- **What a step of the worker does.** It is a child's move, keeps `Boots`, and touches
    nothing the server has. One case for each place of the worker. -/
theorem work_spec (hb : Boots S c) (h : c.work S = some c') :
    ChildMove c c' ∧ Boots S c' ∧ c'.server = c.server ∧ c'.probes = c.probes := by
  have he := hb.earned
  unfold work at h
  split at h <;> rename_i hpc <;> cases h
  all_goals rw [hpc] at he
  case h_1 =>
    split
    · rename_i hruns
      refine ⟨.moveWorker ?_, hb.moveWorker (earned_proceed fun _ hok => ?_), rfl, rfl⟩
      · rw [hpc]; exact later_proceed (by simp) rfl rfl (by simp)
      · exact ⟨hruns, runAll_eq_ok_iff.mp hok⟩
    · refine ⟨.moveWorker ?_, hb.moveWorker (by simp [Earned]), rfl, rfl⟩
      rw [hpc]
      exact .next (by simp) rfl (by simp) (by simp [WorkerPc.stopping])
  case h_2 =>
    refine ⟨.moveWorker ?_, hb.moveWorker (earned_proceed fun _ hok => ?_), rfl, rfl⟩
    · rw [hpc]; exact later_proceed (by simp) rfl rfl (by simp)
    · exact ⟨he, validateModelDir_eq_ok_iff.mp hok⟩
  case h_3 =>
    refine ⟨.moveWorker ?_, hb.moveWorker (earned_proceed fun r hok => ?_), rfl, rfl⟩
    · rw [hpc]; exact later_proceed (by simp) rfl rfl (by simp)
    · obtain ⟨⟨hruns, hfit⟩, hrecheck⟩ := he
      obtain ⟨htimeout, hruns⟩ := calibration_runs_isSome_iff.mp hruns
      exact ⟨htimeout, hruns, hfit, hrecheck, r, hok⟩
  case h_4 =>
    refine ⟨(ChildMove.moveWorker ?_).with .absent c.listened c.probes, ?_, rfl, rfl⟩
    · rw [hpc]; exact .next (by simp) rfl (by simp) (by simp [WorkerPc.stopping])
    · exact ⟨he, hb.ready, by simp, hb.connected⟩
  case h_5 =>
    refine ⟨(ChildMove.moveWorker ?_).with .live true c.probes, ?_, rfl, rfl⟩
    · rw [hpc]; exact .next (by simp) rfl (by simp) (by simp [WorkerPc.stopping])
    · exact ⟨rfl, fun _ => he, fun _ => rfl, fun _ => rfl⟩
  case h_10 =>
    refine ⟨(ChildMove.moveWorker ?_).with .absent c.listened c.probes, ?_, rfl, rfl⟩
    · rw [hpc]; exact .next (by simp) rfl (by simp) fun _ => rfl
    · exact ⟨fun _ => he, hb.ready, by simp, hb.connected⟩
  all_goals
    refine ⟨.moveWorker ?_, hb.moveWorker he, rfl, rfl⟩
    rw [hpc]
    exact .next (by simp) rfl (by simp) (by simp [WorkerPc.stopping])

/-! ## How often the server looks -/

/-- How far the server has got with looking for the socket. Every probe but the first is at
    least half a second after the one before, so the probes are bounded by the time left to
    the deadline: in each place an inequality between the two, and the bound it leads to. The
    bound is kept as well, because once the server has stopped looking the deadline is gone.
    -/
def Looked (S : Setup) (c : Container) : ServerPc → Prop
  | .unborn | .starting => c.probes = 0
  | .statting deadline =>
    deadline + 500 * c.probes ≤ c.now + 1000 * S.worker_socket_timeout_secs ∧
      500 * c.probes < 1000 * S.worker_socket_timeout_secs + 500
  | .connecting deadline | .checking deadline =>
    deadline + 500 * c.probes ≤ c.now + 1000 * S.worker_socket_timeout_secs + 500 ∧
      500 * c.probes < 1000 * S.worker_socket_timeout_secs + 1000
  | .sleeping deadline wake =>
    deadline + 500 * c.probes ≤ wake + 1000 * S.worker_socket_timeout_secs ∧
      500 * c.probes < 1000 * S.worker_socket_timeout_secs + 500
  | _ => 500 * c.probes < 1000 * S.worker_socket_timeout_secs + 1000

/-- All places agree on this bound, one probe for each half second of the timeout and one
    besides. -/
theorem Looked.lt {pc : ServerPc} (h : Looked S c pc) :
    500 * c.probes < 1000 * S.worker_socket_timeout_secs + 1000 := by
  cases pc <;> simp only [Looked] at h <;> omega

theorem Looked.signal {pc : ServerPc} (h : Looked S c pc) (s : Sig) :
    Looked S c (pc.signal s) := by
  have hlt := h.lt
  cases pc <;> cases s <;> first | exact h | exact hlt

theorem moveServer_spec {pc : ServerPc} (hb : Boots S c) (hlater : c.server.Later pc)
    (hc : pc.connected = true → c.listened = true) (hl : Looked S c pc) :
    ChildMove c (c.moveServer pc) ∧ Boots S (c.moveServer pc) ∧ Looked S (c.moveServer pc) pc := by
  refine ⟨.moveServer hlater, hb.moveServer hc, ?_⟩
  cases pc <;> exact hl

/-- **What a step of the server does.** No step of its own finds the worker, so `connected` is
    where it was; what there is to show is that a probe is paid for by the time since the
    last. -/
theorem serve_spec (hb : Boots S c) (hl : Looked S c c.server) (h : c.serve S = some c') :
    ChildMove c c' ∧ Boots S c' ∧ Looked S c' c'.server := by
  have hlt := hl.lt
  have hc := hb.connected
  unfold serve at h
  split at h <;> rename_i hpc <;> simp only [when_eq_some_iff, decide_eq_true_eq, reduceCtorEq,
    Option.some.injEq] at h
  all_goals rw [hpc] at hl hc
  case h_1 =>
    subst h
    have hzero : c.probes = 0 := hl
    refine moveServer_spec hb ?_ (by split_ifs <;> simp [ServerPc.connected]) ?_
    · rw [hpc]; split_ifs <;> exact .next (by simp) rfl (by simp) (by simp [ServerPc.stopped])
    · split_ifs <;> simp only [Looked] <;> omega
  case h_2 deadline =>
    subst h
    have hnext : c.server.Later
        (if c.socket = .absent then .checking deadline else .connecting deadline) := by
      rw [hpc]
      split <;> exact .next (by simp) rfl (by simp) (by simp [ServerPc.stopped])
    refine ⟨(ChildMove.moveServer hnext).with c.socket c.listened (c.probes + 1), ?_, ?_⟩
    · exact ⟨hb.earned, hb.ready, hb.live, by dsimp only [moveServer]; split <;> simp [ServerPc.connected]⟩
    · simp only [Looked] at hl
      dsimp only [moveServer]
      split <;> simp only [Looked] <;> omega
  case h_3 deadline =>
    subst h
    simp only [Looked] at hl
    refine moveServer_spec hb ?_ (by split <;> simp [ServerPc.connected]) ?_
    · rw [hpc]; split <;> exact .next (by simp) rfl (by simp) (by simp [ServerPc.stopped])
    · split <;> simp only [Looked] <;> omega
  case h_4 deadline wake =>
    obtain ⟨hwake, rfl⟩ := h
    simp only [Looked] at hl
    refine moveServer_spec hb ?_ (by simp [ServerPc.connected]) ⟨by omega, by omega⟩
    rw [hpc]; exact .next (by simp) rfl (by simp) (by simp [ServerPc.stopped])
  case h_5 =>
    subst h
    refine moveServer_spec hb ?_ (fun _ => hc rfl) ?_
    · rw [hpc]; split <;> exact .next (by simp) rfl (by simp) (by simp [ServerPc.stopped])
    · split <;> exact hlt
  case h_9 wake =>
    obtain ⟨-, rfl⟩ := h
    refine moveServer_spec hb ?_ (fun _ => hc rfl) hlt
    rw [hpc]; exact .next (by simp) rfl (by simp) (by simp [ServerPc.stopped])
  all_goals
    subst h
    refine moveServer_spec hb ?_ (fun _ => hc rfl) hlt
    rw [hpc]; exact .next (by simp) rfl (by simp) (by simp [ServerPc.stopped])

/-- A connection is what the environment grants or refuses, and it is granted only if the
    socket is live. This is where the server learns of the worker, and the case that needs
    `Boots`. -/
theorem connect_spec {ok : Bool} (hb : Boots S c) (hl : Looked S c c.server)
    (h : c.connect ok = some c') : ChildMove c c' ∧ Boots S c' ∧ Looked S c' c'.server := by
  unfold connect at h
  split at h
  · rename_i deadline hpc
    obtain ⟨hok, rfl⟩ := when_eq_some_iff.mp h
    rw [hpc] at hl
    refine moveServer_spec hb ?_ ?_ ?_
    · rw [hpc]; split <;> exact .next (by simp) rfl (by simp) (by simp [ServerPc.stopped])
    · intro hc
      refine hb.listened_of_live ?_
      cases ok with
      | false => simp [ServerPc.connected] at hc
      | true => simpa using hok
    · split
      · exact hl.lt
      · exact hl
  · exact absurd h (by simp)

/-! ## The stages of `entrypoint.sh` -/

/-- `FIRST_EXIT` is the code of a child, or the status of a signal that was trapped. It
    becomes the exit code of the container, so these are all the codes a container can have,
    but for the 64 of a variable that is not set. -/
def Explained (c : Container) (first : Nat) : Prop :=
  c.worker = .exited first ∨ c.server = .exited first ∨ ∃ s ∈ c.trapped, first = s.status

/-- What each stage has behind it. The four parts of the script leave four traces: before the
    children are started neither exists; between the spawns and `wait -n` both do; behind it
    both have been told to stop; and at the end both are gone. A script that exits on its own
    has exit code 64 and has started nothing, or has explained its code. `died` is a script
    that was killed, of which nothing can be promised. -/
def Stage (S : Setup) (c : Container) : SupervisorPc → Prop
  | .checkingSocket | .checkingPort => c.worker = .unborn ∧ c.server = .unborn
  | .removing | .spawningWorker =>
    c.worker = .unborn ∧ c.server = .unborn ∧ unset S "LA_INTERNAL_PORT".toList = false
  | .spawningServer =>
    c.worker ≠ .unborn ∧ c.server = .unborn ∧ unset S "LA_INTERNAL_PORT".toList = false
  | .trapping | .waiting => c.worker ≠ .unborn ∧ c.server ≠ .unborn
  | .terminating first => (c.worker ≠ .unborn ∧ c.server ≠ .unborn) ∧ Explained c first
  | .polling first _ | .sleeping first _ _ | .killing first =>
    (c.worker.stopping = true ∧ c.server.stopped = true) ∧ Explained c first
  | .leaving first => (c.worker.gone = true ∧ c.server.gone = true) ∧ Explained c first
  | .exited code =>
    (code = 64 ∧ (unset S "LA_IPC_SOCKET".toList = true ∨ unset S "LA_INTERNAL_PORT".toList = true) ∧
      c.worker = .unborn ∧ c.server = .unborn) ∨
    (c.worker.gone = true ∧ c.server.gone = true) ∧ Explained c code
  | .died _ => True

/-- What time it is at each stage. Before `wait -n` returns, no time has passed since a child
    ended, because time does not pass while the script has something to do. In the polling
    loop the time that has passed and the rounds left make up five seconds exactly. -/
def Clock (c : Container) : SupervisorPc → Prop
  | .checkingSocket | .checkingPort | .removing | .spawningWorker => c.due = none
  | .spawningServer | .trapping | .waiting =>
    ∀ t, c.due = some t → t = c.now ∧ (c.worker.gone = true ∨ c.server.gone = true)
  | .terminating _ => c.due = some c.now
  | .polling _ left => ∃ t, c.due = some t ∧ c.now + 500 * left = t + 5000
  | .sleeping _ left wake => ∃ t, c.due = some t ∧ wake + 500 * left = t + 5000 ∧ c.now ≤ wake
  | .killing _ | .leaving _ => ∃ t, c.due = some t ∧ c.now ≤ t + 5000
  | .exited _ | .died _ => True

theorem mark_of_due {t : Nat} (h : c.due = some t) : c.mark = some t := by
  simp [mark, h]

namespace ChildMove

variable (hm : ChildMove c c')
include hm

theorem worker_gone (h : c.worker.gone = true) : c'.worker.gone = true := by
  rw [hm.worker.gone h]; exact h

theorem server_gone (h : c.server.gone = true) : c'.server.gone = true := by
  rw [hm.server.gone h]; exact h

/-- The first end is marked once. -/
theorem due_eq {t : Nat} (h : c.due = some t) : c'.due = some t := by
  rcases hm.due with hd | ⟨hd, -⟩
  · rw [hd, h]
  · rw [hd, mark_of_due h]

/-- A child that has ended keeps its code, so an explanation stays one. -/
theorem explained {first : Nat} (h : Explained c first) : Explained c' first := by
  rcases h with h | h | h
  · left
    rw [hm.worker.gone (by rw [h]; rfl), h]
  · right; left
    rw [hm.server.gone (by rw [h]; rfl), h]
  · right; right
    rw [hm.trapped]
    exact h

/-- **No stage is disturbed by a child.** Each is about what children cannot undo. -/
theorem stage {pc : SupervisorPc} (h : Stage S c pc) : Stage S c' pc := by
  cases pc with
  | checkingSocket | checkingPort =>
    exact ⟨hm.worker.unborn.mp h.1, hm.server.unborn.mp h.2⟩
  | removing | spawningWorker =>
    exact ⟨hm.worker.unborn.mp h.1, hm.server.unborn.mp h.2.1, h.2.2⟩
  | spawningServer =>
    exact ⟨fun hu => h.1 (hm.worker.unborn.mpr hu), hm.server.unborn.mp h.2.1, h.2.2⟩
  | trapping | waiting =>
    exact ⟨fun hu => h.1 (hm.worker.unborn.mpr hu), fun hu => h.2 (hm.server.unborn.mpr hu)⟩
  | terminating first =>
    exact ⟨⟨fun hu => h.1.1 (hm.worker.unborn.mpr hu), fun hu => h.1.2 (hm.server.unborn.mpr hu)⟩,
      hm.explained h.2⟩
  | polling first left | sleeping first left wake | killing first =>
    exact ⟨⟨hm.worker.stopping h.1.1, hm.server.stopped h.1.2⟩, hm.explained h.2⟩
  | leaving first => exact ⟨⟨hm.worker_gone h.1.1, hm.server_gone h.1.2⟩, hm.explained h.2⟩
  | exited code =>
    rcases h with ⟨hcode, hset, hw, hs⟩ | ⟨hgone, hex⟩
    · exact .inl ⟨hcode, hset, hm.worker.unborn.mp hw, hm.server.unborn.mp hs⟩
    · exact .inr ⟨⟨hm.worker_gone hgone.1, hm.server_gone hgone.2⟩, hm.explained hex⟩
  | died s => trivial

/-- Nor is the clock: it speaks of the time, which stands still, and of the first end, which
    is marked. -/
theorem clock {pc : SupervisorPc} (hs : Stage S c pc) (h : Clock c pc) : Clock c' pc := by
  cases pc with
  | checkingSocket | checkingPort | removing | spawningWorker =>
    have hw : c.worker = .unborn := hs.1
    have hv : c.server = .unborn := by first | exact hs.2.1 | exact hs.2
    -- a child that is not born does not end
    rcases hm.due with hd | ⟨-, hg | hg⟩
    · exact hd.trans h
    · rw [hm.worker.unborn.mp hw] at hg; exact absurd hg (by simp [WorkerPc.gone])
    · rw [hm.server.unborn.mp hv] at hg; exact absurd hg (by simp [ServerPc.gone])
  | spawningServer | trapping | waiting =>
    intro t ht
    rw [hm.now]
    rcases hm.due with hd | ⟨hd, hg⟩
    · obtain ⟨ht', hg⟩ := h t (hd ▸ ht)
      exact ⟨ht', hg.imp hm.worker_gone hm.server_gone⟩
    · refine ⟨?_, hg⟩
      rw [hd] at ht
      cases hdue : c.due with
      | none => rw [mark, hdue] at ht; exact (Option.some.inj ht).symm
      | some t' =>
        rw [mark_of_due hdue] at ht
        exact (Option.some.inj ht) ▸ (h t' hdue).1
  | terminating first =>
    show c'.due = some c'.now
    rw [hm.now]
    exact hm.due_eq h
  | polling first left =>
    obtain ⟨t, ht, hn⟩ := h
    exact ⟨t, hm.due_eq ht, by rw [hm.now]; exact hn⟩
  | sleeping first left wake =>
    obtain ⟨t, ht, hn, hw⟩ := h
    exact ⟨t, hm.due_eq ht, hn, by rw [hm.now]; exact hw⟩
  | killing first | leaving first =>
    obtain ⟨t, ht, hn⟩ := h
    exact ⟨t, hm.due_eq ht, by rw [hm.now]; exact hn⟩
  | exited code => trivial
  | died s => trivial

end ChildMove

/-- **What holds in every state of a run.** The parts were stated apart because each is kept
    for its own reason; `marked` and `checked` are what is left over: an end has a time, and
    the server is not started without a port. -/
structure Inv (S : Setup) (c : Container) : Prop where
  boots : Boots S c
  looked : Looked S c c.server
  trapped : ∀ s ∈ c.trapped, s = .int ∨ s = .term
  stage : Stage S c c.supervisor
  clock : Clock c c.supervisor
  marked : c.worker.gone = true ∨ c.server.gone = true → c.due ≠ none
  checked : c.server ≠ .unborn → unset S "LA_INTERNAL_PORT".toList = false

theorem mark_ne_none : c.mark ≠ none := by
  cases h : c.due <;> simp [mark, h]

/-- A move of a child costs only what it does to the socket and to the probes. -/
theorem Inv.child (hi : Inv S c) (hm : ChildMove c c') (hb : Boots S c')
    (hl : Looked S c' c'.server) : Inv S c' where
  boots := hb
  looked := hl
  trapped := by rw [hm.trapped]; exact hi.trapped
  stage := by rw [hm.supervisor]; exact hm.stage hi.stage
  clock := by rw [hm.supervisor]; exact hm.clock hi.stage hi.clock
  marked := fun hg => by
    have hmark : c.due ≠ none → c'.due ≠ none := fun hd => by
      obtain ⟨t, ht⟩ := Option.ne_none_iff_exists'.mp hd
      rw [hm.due_eq ht]
      simp
    rcases hm.marked hg with hw | hs | hd
    · exact hmark (hi.marked (.inl hw))
    · exact hmark (hi.marked (.inr hs))
    · rw [hd]; exact mark_ne_none
  checked := fun hu => hi.checked fun h => hu (hm.server.unborn.mp h)

/-! ## One step -/

/-- Stages know nothing of the time. -/
theorem Stage.at {pc : SupervisorPc} (h : Stage S c pc) (d : Nat) :
    Stage S { c with now := d } pc := by
  cases pc <;> exact h

/-- The server may be asleep while time passes, and then the deadline comes nearer without a
    probe. -/
theorem Looked.elapse {pc : ServerPc} (h : Looked S c pc) (d : Nat) :
    Looked S { c with now := c.now + d } pc := by
  cases pc <;> simp only [Looked] at h ⊢ <;> omega

/-- Time passes only where the script has nothing to do: in `rm`, in its `sleep`, or in a
    `wait -n` with no child to report. -/
theorem Inv.elapse {d : Nat} (hi : Inv S c) (hd : c.mayElapse d = true) :
    Inv S { c with now := c.now + d } where
  boots := ⟨hi.boots.earned, hi.boots.ready, hi.boots.live, hi.boots.connected⟩
  looked := hi.looked.elapse d
  trapped := hi.trapped
  stage := hi.stage.at _
  clock := by
    have hclock := hi.clock
    unfold mayElapse at hd
    dsimp only
    cases hpc : c.supervisor with
    | removing => rw [hpc] at hclock; exact hclock
    | waiting =>
      -- with a child gone, no time passes here
      simp only [hpc, Bool.and_eq_true, Bool.not_eq_true'] at hd
      rw [hpc] at hclock
      intro t ht
      rcases (hclock t ht).2 with hg | hg <;> simp [hg] at hd
    | sleeping first left wake =>
      simp only [hpc, decide_eq_true_eq] at hd
      rw [hpc] at hclock
      obtain ⟨t, ht, hn, -⟩ := hclock
      exact ⟨t, ht, hn, hd⟩
    | exited | died => trivial
    | _ => simp [hpc] at hd
  marked := hi.marked
  checked := hi.checked

/-- `entrypoint.sh` goes on by itself. The two things to show are those of the statement it
    reaches. -/
theorem Inv.goto {pc : SupervisorPc} (hi : Inv S c) (hs : Stage S c pc) (hc : Clock c pc) :
    Inv S (c.goto pc) where
  boots := ⟨hi.boots.earned, hi.boots.ready, hi.boots.live, hi.boots.connected⟩
  looked := by
    have := hi.looked
    show Looked S (c.goto pc) c.server
    cases hp : c.server <;> rw [hp] at this <;> exact this
  trapped := hi.trapped
  stage := by cases pc <;> exact hs
  clock := by cases pc <;> exact hc
  marked := hi.marked
  checked := hi.checked

theorem Inv.moveWorker {pc : WorkerPc} (hi : Inv S c) (hl : c.worker.Later pc)
    (he : Earned S c.listened pc) : Inv S (c.moveWorker pc) :=
  hi.child (.moveWorker hl) (hi.boots.moveWorker he) (by
    have := hi.looked
    show Looked S (c.moveWorker pc) c.server
    cases hp : c.server <;> rw [hp] at this <;> exact this)

theorem Inv.moveServer {pc : ServerPc} (hi : Inv S c) (hl : c.server.Later pc)
    (hc : pc.connected = true → c.listened = true) (hk : Looked S c pc) :
    Inv S (c.moveServer pc) :=
  have ⟨hm, hb, hk⟩ := moveServer_spec hi.boots hl hc hk
  hi.child hm hb hk

/-- `kill` reaches both children, whatever they are doing. -/
theorem Inv.signalBoth (hi : Inv S c) (s : Sig) : Inv S (c.signalBoth s) :=
  have hw := hi.moveWorker (c.worker.later_signal s) (hi.boots.earned.signal s)
  hw.moveServer (c.server.later_signal s) (fun hc => hw.boots.connected
    (ServerPc.connected_of_signal hc)) (hw.looked.signal s)

theorem Stage.record {pc : SupervisorPc} {s : Sig} {m : Option Nat} (h : Stage S c pc) :
    Stage S { c with supervisor := pc, due := m, trapped := s :: c.trapped } pc := by
  have hex : ∀ {first}, Explained c first →
      Explained { c with supervisor := pc, due := m, trapped := s :: c.trapped } first :=
    fun h => h.imp id fun h => h.imp id fun ⟨s', hs', hf⟩ => ⟨s', List.mem_cons_of_mem _ hs', hf⟩
  cases pc with
  | terminating | polling | sleeping | killing | leaving => exact ⟨h.1, hex h.2⟩
  | exited code => exact h.imp id fun h => ⟨h.1, hex h.2⟩
  | _ => exact h

/-- Behind `wait -n` the clock runs from a time that does not change, whatever else does. This
    is why a second signal does not prolong the five seconds. -/
theorem Clock.fixed {pc : SupervisorPc} (h : Clock c pc) (hpc : pc.ending = true) :
    ∃ t, c.due = some t ∧ ∀ d : Container, d.now = c.now → d.due = some t → Clock d pc := by
  cases pc with
  | terminating first =>
    exact ⟨c.now, h, fun d hn hd => by rw [← hn] at hd; exact hd⟩
  | polling first left =>
    obtain ⟨t, ht, h⟩ := h
    exact ⟨t, ht, fun d hn hd => ⟨t, hd, by rw [hn]; exact h⟩⟩
  | sleeping first left wake =>
    obtain ⟨t, ht, h, hw⟩ := h
    exact ⟨t, ht, fun d hn hd => ⟨t, hd, h, by rw [hn]; exact hw⟩⟩
  | killing first | leaving first =>
    obtain ⟨t, ht, h⟩ := h
    exact ⟨t, ht, fun d hn hd => ⟨t, hd, by rw [hn]; exact h⟩⟩
  | _ => exact absurd hpc (by simp [SupervisorPc.ending])

theorem Clock.mark_waiting (h : Clock c .waiting) : c.mark = some c.now := by
  cases hdue : c.due with
  | none => simp [mark, hdue]
  | some t => rw [mark_of_due hdue, (h t hdue).1]

/-- A signal is trapped: it goes to the children, and is recorded. Stated for any place the
    script may go on from, since a trap runs between two of its statements. -/
theorem Inv.record {s : Sig} {pc : SupervisorPc} (hi : Inv S c) (hs : s = .int ∨ s = .term)
    (hstage : Stage S { c with supervisor := pc, due := c.mark, trapped := s :: c.trapped } pc)
    (hclock : Clock { c with supervisor := pc, due := c.mark, trapped := s :: c.trapped } pc) :
    Inv S { c with supervisor := pc, due := c.mark, trapped := s :: c.trapped } where
  boots := ⟨hi.boots.earned, hi.boots.ready, hi.boots.live, hi.boots.connected⟩
  looked := by
    have := hi.looked
    dsimp only
    cases hp : c.server <;> rw [hp] at this <;> exact this
  trapped := by
    intro s' hs'
    rcases List.mem_cons.mp hs' with rfl | hs'
    · exact hs
    · exact hi.trapped s' hs'
  stage := hstage
  clock := hclock
  marked := fun _ => mark_ne_none
  checked := hi.checked

theorem mark_signalBoth (s : Sig) : (c.signalBoth s).mark = c.mark := by
  have hor : ∀ o : Option Nat, (o.or (some c.now)).or (some c.now) = o.or (some c.now) := by
    intro o; cases o <;> rfl
  simp only [mark, Container.signalBoth, Container.moveServer, Container.moveWorker]
  split <;> split <;> simp only [hor]

theorem Inv.trap (hi : Inv S c) (s : Sig) : Inv S (c.trap s) := by
  have hdie : Inv S (c.goto (.died s)) := hi.goto trivial trivial
  by_cases hsig : s = .hup ∨ s = .kill
  · unfold Container.trap
    split
    case h_1 | h_2 => exact hi
    case h_9 => rw [if_pos hsig]; exact hdie
    all_goals exact hdie
  · have hs : s = .int ∨ s = .term := by cases s <;> simp at hsig ⊢
    have hb := hi.signalBoth s
    have hstage := hb.stage
    have hclock := hb.clock
    rw [show (c.signalBoth s).supervisor = c.supervisor from rfl] at hstage hclock
    have hrecord : ∀ {pc : SupervisorPc},
        Stage S { c.signalBoth s with supervisor := pc, due := c.mark, trapped := s :: c.trapped } pc →
        Clock { c.signalBoth s with supervisor := pc, due := c.mark, trapped := s :: c.trapped } pc →
        Inv S { c.signalBoth s with
          supervisor := pc, due := c.mark, trapped := s :: c.trapped } := by
      intro pc h₁ h₂
      rw [← mark_signalBoth s] at h₁ h₂ ⊢
      exact hb.record hs h₁ h₂
    unfold Container.trap
    cases hpc : c.supervisor with
    | exited | died => exact hi
    | checkingSocket | checkingPort | removing | spawningWorker | spawningServer | trapping =>
      exact hdie
    | waiting =>
      rw [hpc] at hstage hclock
      dsimp only
      rw [if_neg hsig, if_pos rfl]
      refine hrecord ⟨hstage, .inr (.inr ⟨s, List.mem_cons_self, rfl⟩)⟩ ?_
      show c.mark = some (c.signalBoth s).now
      rw [← mark_signalBoth s]
      exact hclock.mark_waiting
    | terminating | polling | sleeping | killing | leaving =>
      rw [hpc] at hstage hclock
      dsimp only
      rw [if_neg hsig, if_neg (by simp)]
      refine hrecord hstage.record ?_
      obtain ⟨t, ht, hd⟩ := hclock.fixed rfl
      refine hd _ rfl ?_
      show c.mark = some t
      rw [← mark_signalBoth s]
      exact mark_of_due ht

/-- **What a statement of `entrypoint.sh` does.** One case for each of them, and each has to
    establish the stage and the clock of the next. -/
theorem Inv.supervise (hi : Inv S c) (h : c.supervise S = some c') : Inv S c' := by
  have hstage := hi.stage
  have hclock := hi.clock
  unfold Container.supervise at h
  split at h <;> rename_i hpc <;> simp only [when_eq_some_iff, decide_eq_true_eq, reduceCtorEq,
    Option.some.injEq] at h
  all_goals rw [hpc] at hstage hclock
  case h_1 =>
    subst h
    split
    · rename_i hset
      exact hi.goto (.inl ⟨rfl, .inl hset, hstage⟩) trivial
    · exact hi.goto hstage hclock
  case h_2 =>
    subst h
    split
    · rename_i hset
      exact hi.goto (.inl ⟨rfl, .inr hset, hstage⟩) trivial
    · rename_i hset
      exact hi.goto ⟨hstage.1, hstage.2, Bool.eq_false_of_not_eq_true hset⟩ hclock
  case h_3 =>
    subst h
    obtain ⟨hw, hs, hset⟩ := hstage
    exact
      { boots := by
          have : Boots S (c.moveWorker .validating) := hi.boots.moveWorker trivial
          exact ⟨this.earned, this.ready, this.live, this.connected⟩
        looked := by
          have := hi.looked
          rw [hs] at this
          show Looked S _ c.server
          rw [hs]
          exact this
        trapped := hi.trapped
        stage := ⟨by simp [Container.goto, Container.moveWorker], hs, hset⟩
        clock := fun t ht => absurd (show c.due = some t from ht) (by rw [hclock]; simp)
        marked := by simp [Container.goto, Container.moveWorker, WorkerPc.gone, hs, ServerPc.gone]
        checked := hi.checked }
  case h_4 =>
    subst h
    obtain ⟨hw, hs, hset⟩ := hstage
    exact
      { boots := by
          have : Boots S (c.moveServer .starting) :=
            hi.boots.moveServer (by simp [ServerPc.connected])
          exact ⟨this.earned, this.ready, this.live, this.connected⟩
        looked := by
          have := hi.looked
          rw [hs] at this
          exact this
        trapped := hi.trapped
        stage := ⟨hw, by simp [Container.goto, Container.moveServer]⟩
        clock := fun t ht => by
          obtain ⟨hn, hg | hg⟩ := hclock t ht
          · exact ⟨hn, .inl hg⟩
          · rw [hs] at hg
            exact absurd hg (by simp [ServerPc.gone])
        marked := by
          rintro (hg | hg)
          · exact hi.marked (.inl hg)
          · exact absurd hg (by simp [Container.goto, Container.moveServer, ServerPc.gone])
        checked := fun _ => hset }
  case h_5 =>
    subst h
    exact hi.goto hstage hclock
  case h_6 first =>
    subst h
    have hb := hi.signalBoth .term
    have hstage' := hb.stage
    have hclock' := hb.clock
    rw [show (c.signalBoth .term).supervisor = c.supervisor from rfl, hpc] at hstage' hclock'
    refine hb.goto ⟨⟨?_, ?_⟩, hstage'.2⟩ ⟨_, hclock', rfl⟩
    · exact WorkerPc.signal_term_stopping hstage.1.1
    · exact ServerPc.signal_term_stopped hstage.1.2
  case h_7 first left =>
    subst h
    obtain ⟨t, ht, hn⟩ := hclock
    split
    · exact hi.goto hstage ⟨t, ht, by omega⟩
    · rename_i hleft
      have : left ≠ 0 := fun h => hleft (.inl h)
      exact hi.goto hstage ⟨t, ht, by omega, by omega⟩
  case h_8 first left wake =>
    obtain ⟨hwake, rfl⟩ := h
    obtain ⟨t, ht, hn, hle⟩ := hclock
    exact hi.goto hstage ⟨t, ht, by omega⟩
  case h_9 first =>
    subst h
    have hb := hi.signalBoth .kill
    have hstage' := hb.stage
    have hclock' := hb.clock
    rw [show (c.signalBoth .kill).supervisor = c.supervisor from rfl, hpc] at hstage' hclock'
    refine hb.goto ⟨⟨?_, ?_⟩, hstage'.2⟩ hclock'
    · refine WorkerPc.signal_kill_gone fun hu => ?_
      have := hstage.1.1
      rw [hu] at this
      exact absurd this (by simp [WorkerPc.stopping])
    · refine ServerPc.signal_kill_gone fun hu => ?_
      have := hstage.1.2
      rw [hu] at this
      exact absurd this (by simp [ServerPc.stopped])
  case h_10 first =>
    subst h
    exact hi.goto (.inr hstage) trivial

/-- `wait -n` reports a child that has ended. Which one it reports, when both have, is not
    determined. -/
theorem reap_cases {child : Child} (h : c.reap child = some c') :
    c.supervisor = .waiting ∧ ∃ code, (c.worker = .exited code ∨ c.server = .exited code) ∧
      c' = c.goto (.terminating code) := by
  unfold reap at h
  split at h
  · rename_i code hsup hw
    exact ⟨hsup, code, .inl hw, (Option.some.inj h).symm⟩
  · rename_i code hsup hs
    exact ⟨hsup, code, .inr hs, (Option.some.inj h).symm⟩
  · exact absurd h (by simp)

/-- **Every step keeps the invariant.** The children's by their `spec`s, the script's by
    `supervise` and `trap`, and time by `elapse`. -/
theorem Inv.step {a : Action} (hi : Inv S c) (h : c.Step S a c') : Inv S c' := by
  cases a with
  | elapse d =>
    obtain ⟨hd, rfl⟩ := when_eq_some_iff.mp h
    exact hi.elapse hd
  | signal s =>
    obtain rfl := Option.some.inj h
    exact hi.trap s
  | signalChild child s =>
    cases child with
    | worker =>
      obtain rfl := Option.some.inj h
      exact hi.moveWorker (c.worker.later_signal s) (hi.boots.earned.signal s)
    | server =>
      obtain rfl := Option.some.inj h
      exact hi.moveServer (c.server.later_signal s) (fun hc => hi.boots.connected
        (ServerPc.connected_of_signal hc)) (hi.looked.signal s)
  | supervise => exact hi.supervise h
  | remove ok =>
    obtain ⟨hpc, rfl⟩ := when_eq_some_iff.mp h
    have hstage := hi.stage
    have hclock := hi.clock
    rw [of_decide_eq_true hpc] at hstage hclock
    have hg : Inv S (c.goto .spawningWorker) := hi.goto hstage hclock
    exact ⟨⟨hg.boots.earned, hg.boots.ready, fun hl => hg.boots.live (by
      cases ok <;> simp at hl; exact hl), hg.boots.connected⟩, by
      have := hg.looked
      dsimp only
      cases hp : (c.goto .spawningWorker).server <;> rw [hp] at this <;> exact this, hg.trapped,
      hg.stage, hg.clock, hg.marked, hg.checked⟩
  | reap child =>
    obtain ⟨hpc, code, hcode, rfl⟩ := reap_cases h
    have hstage := hi.stage
    have hclock := hi.clock
    rw [hpc] at hstage hclock
    refine hi.goto ⟨hstage, hcode.imp id .inl⟩ ?_
    -- the end of the child was marked, and no time has passed since
    have hmarked := hi.marked (hcode.imp (fun h => by rw [h]; rfl) (fun h => by rw [h]; rfl))
    obtain ⟨t, ht⟩ := Option.ne_none_iff_exists'.mp hmarked
    show c.due = some c.now
    rw [ht, (hclock t ht).1]
  | work =>
    obtain ⟨hm, hb, hs, hp⟩ := work_spec hi.boots h
    refine hi.child hm hb ?_
    have := hi.looked
    rw [hs]
    cases hpc : c.server <;> rw [hpc] at this <;> simp only [Looked, hm.now, hp] at this ⊢ <;>
      exact this
  | workerFails code =>
    obtain ⟨hpc, rfl⟩ := when_eq_some_iff.mp h
    simp only [ne_eq, Bool.and_eq_true, decide_eq_true_eq, Bool.not_eq_true'] at hpc
    exact hi.moveWorker (.next hpc.1.1 hpc.1.2 (by simp) fun _ => rfl) fun h0 => absurd h0 hpc.2
  | serve =>
    obtain ⟨hm, hb, hl⟩ := serve_spec hi.boots hi.looked h
    exact hi.child hm hb hl
  | connect ok =>
    obtain ⟨hm, hb, hl⟩ := connect_spec hi.boots hi.looked h
    exact hi.child hm hb hl
  | serverFails code =>
    obtain ⟨hpc, rfl⟩ := when_eq_some_iff.mp h
    simp only [ne_eq, Bool.and_eq_true, decide_eq_true_eq, Bool.not_eq_true'] at hpc
    refine hi.moveServer (.next hpc.1.1 hpc.1.2 (by simp) fun _ => rfl) ?_ hi.looked.lt
    simp [ServerPc.connected, hpc.2]

/-- A container starts with no child, no time to account for, and perhaps the socket of an
    earlier one. -/
theorem inv_start (S : Setup) (now : Nat) (stale : Bool) : Inv S (start now stale) where
  boots := by
    refine ⟨trivial, by simp [start], ?_, by simp [start, ServerPc.connected]⟩
    cases stale <;> simp [start]
  looked := rfl
  trapped := by simp [start]
  stage := ⟨rfl, rfl⟩
  clock := rfl
  marked := by simp [start, WorkerPc.gone, ServerPc.gone]
  checked := fun h => absurd rfl h

theorem inv_of_run {now : Nat} {stale : Bool} {as : List Action}
    (h : Run (Step S) (start now stale) as c) : Inv S c :=
  h.invariant (fun _ _ _ hi hs => hi.step hs) (inv_start S now stale)

/-! ## The listener -/

/-- The clock does not go back. -/
theorem now_le {c : Container} {a : Action} (h : c.Step S a c') : c.now ≤ c'.now := by
  cases a with
  | elapse d =>
    obtain ⟨-, rfl⟩ := when_eq_some_iff.mp h
    exact Nat.le_add_right _ _
  | signal s =>
    obtain rfl := Option.some.inj h
    unfold Container.trap
    split
    case h_9 => split <;> exact le_rfl
    all_goals exact le_rfl
  | signalChild child s => cases child <;> obtain rfl := Option.some.inj h <;> exact le_rfl
  | remove | workerFails | serverFails =>
    obtain ⟨-, rfl⟩ := when_eq_some_iff.mp h
    exact le_rfl
  | reap child =>
    obtain ⟨-, -, -, rfl⟩ := reap_cases h
    exact le_rfl
  | supervise =>
    change c.supervise S = some c' at h
    unfold Container.supervise at h
    split at h <;> simp only [when_eq_some_iff, reduceCtorEq, Option.some.injEq] at h
    case h_8 => obtain ⟨-, rfl⟩ := h; exact le_rfl
    all_goals subst h; exact le_rfl
  | work =>
    change c.work S = some c' at h
    unfold Container.work at h
    split at h <;> cases h <;> exact le_rfl
  | serve =>
    change c.serve S = some c' at h
    unfold Container.serve at h
    split at h <;> simp only [when_eq_some_iff, reduceCtorEq, Option.some.injEq] at h
    case h_4 | h_9 => obtain ⟨-, rfl⟩ := h; exact le_rfl
    all_goals subst h; exact le_rfl
  | connect ok =>
    change c.connect ok = some c' at h
    unfold Container.connect at h
    split at h
    · obtain ⟨-, rfl⟩ := when_eq_some_iff.mp h
      exact le_rfl
    · exact absurd h (by simp)

/-- What the server has made of its arguments at each place: from `statting` on it has a deadline,
    and behind `bind` an address. It is kept apart from `Inv` because it is about the arguments
    of the server, which no other process sees. -/
structure Argued (S : Setup) (now : Nat) (pc : ServerPc) : Prop where
  deadline : pc.timed = true → S.deadlineFits now = true
  addr : pc.addressed = true → S.addr.isSome = true

theorem Argued.signal {now : Nat} {pc : ServerPc} (h : Argued S now pc) (s : Sig) :
    Argued S now (pc.signal s) :=
  ⟨fun ht => h.deadline (ServerPc.timed_of_signal ht),
    fun ha => h.addr (ServerPc.addressed_of_signal ha)⟩

theorem argued_exited (now code : Nat) : Argued S now (.exited code) :=
  ⟨fun h => absurd h (by simp [ServerPc.timed]), fun h => absurd h (by simp [ServerPc.addressed])⟩

/-- A deadline that fits later has fitted before. -/
theorem deadlineFits_anti {now now' : Nat} (hle : now ≤ now') (h : S.deadlineFits now' = true) :
    S.deadlineFits now = true := by
  simp only [Setup.deadlineFits, decide_eq_true_eq] at h ⊢
  omega

/-- The script touches the server by signals only. -/
theorem server_trap (c : Container) (s : Sig) :
    (c.trap s).server = c.server ∨ (c.trap s).server = c.server.signal s := by
  unfold Container.trap
  split
  case h_9 =>
    split
    · exact .inl rfl
    · exact .inr rfl
  all_goals exact .inl rfl

theorem Argued.supervise {now : Nat} {c : Container} (ha : Argued S now c.server)
    (h : c.supervise S = some c') : Argued S now c'.server := by
  unfold Container.supervise at h
  split at h <;> simp only [when_eq_some_iff, reduceCtorEq, Option.some.injEq] at h
  case h_4 =>
    subst h
    exact ⟨fun h => absurd h (by simp [Container.goto, Container.moveServer, ServerPc.timed]),
      fun h => absurd h (by simp [Container.goto, Container.moveServer, ServerPc.addressed])⟩
  case h_6 => subst h; exact ha.signal .term
  case h_8 => obtain ⟨-, rfl⟩ := h; exact ha
  case h_9 => subst h; exact ha.signal .kill
  all_goals subst h; exact ha

/-- The deadline is what the first step computes, and the listener is opened on what has been
    parsed; between the two nothing is asked of the arguments. -/
theorem Argued.serve {now : Nat} {c : Container} (hnow : now ≤ c.now)
    (ha : Argued S now c.server) (h : c.serve S = some c') : Argued S now c'.server := by
  unfold Container.serve at h
  split at h <;> rename_i hpc <;> simp only [when_eq_some_iff, reduceCtorEq, Option.some.injEq] at h
  all_goals rw [hpc] at ha
  case h_1 =>
    subst h
    simp only [moveServer]
    split_ifs with hargs hfits
    · exact argued_exited now 2
    · exact ⟨fun _ => deadlineFits_anti hnow hfits, fun h => absurd h (by simp [ServerPc.addressed])⟩
    · exact argued_exited now 134
  case h_2 | h_3 =>
    subst h
    simp only [moveServer]
    split_ifs <;> first
      | exact argued_exited now 1
      | exact ⟨fun _ => ha.deadline rfl, fun h => absurd h (by simp [ServerPc.addressed])⟩
  case h_4 =>
    obtain ⟨-, rfl⟩ := h
    exact ⟨fun _ => ha.deadline rfl, fun h => absurd h (by simp [moveServer, ServerPc.addressed])⟩
  case h_5 =>
    subst h
    simp only [moveServer]
    split_ifs with haddr
    · exact ⟨fun _ => ha.deadline rfl, fun _ => haddr⟩
    · exact argued_exited now 1
  case h_9 =>
    obtain ⟨-, rfl⟩ := h
    exact argued_exited now 0
  all_goals
    subst h
    exact ⟨fun _ => ha.deadline rfl, fun _ => ha.addr rfl⟩

theorem Argued.step {now : Nat} {c : Container} {a : Action} (hnow : now ≤ c.now)
    (ha : Argued S now c.server) (h : c.Step S a c') : Argued S now c'.server := by
  cases a with
  | signal s =>
    obtain rfl := Option.some.inj h
    rcases server_trap c s with hs | hs <;> rw [hs]
    · exact ha
    · exact ha.signal s
  | signalChild child s =>
    cases child <;> obtain rfl := Option.some.inj h
    · exact ha
    · exact ha.signal s
  | supervise => exact ha.supervise h
  | serve => exact ha.serve hnow h
  | elapse | remove | workerFails =>
    obtain ⟨-, rfl⟩ := when_eq_some_iff.mp h
    exact ha
  | reap child =>
    obtain ⟨-, -, -, rfl⟩ := reap_cases h
    exact ha
  | work =>
    have hserver : c'.server = c.server := by
      change c.work S = some c' at h
      unfold Container.work at h
      split at h <;> cases h <;> rfl
    rw [hserver]
    exact ha
  | connect ok =>
    change c.connect ok = some c' at h
    unfold Container.connect at h
    split at h
    · rename_i hpc
      rw [hpc] at ha
      obtain ⟨-, rfl⟩ := when_eq_some_iff.mp h
      simp only [moveServer]
      split_ifs <;>
        exact ⟨fun _ => ha.deadline rfl, fun h => absurd h (by simp [ServerPc.addressed])⟩
    · exact absurd h (by simp)
  | serverFails code =>
    obtain ⟨-, rfl⟩ := when_eq_some_iff.mp h
    exact argued_exited now code

theorem argued_of_run {now : Nat} {stale : Bool} {as : List Action}
    (h : Run (Step S) (start now stale) as c) : Argued S now c.server := by
  have hboth : now ≤ c.now ∧ Argued S now c.server :=
    h.invariant (I := fun c => now ≤ c.now ∧ Argued S now c.server)
      (fun _ _ _ hi hs => ⟨hi.1.trans (now_le hs), hi.2.step hi.1 hs⟩)
      ⟨le_rfl, fun h => absurd h (by simp [start, ServerPc.timed]),
        fun h => absurd h (by simp [start, ServerPc.addressed])⟩
  exact hboth.2

end Container

end LocateAnything.Boot
