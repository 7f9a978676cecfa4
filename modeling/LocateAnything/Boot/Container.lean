import LocateAnything.Lib.Transition
import LocateAnything.Worker.Calibration
import LocateAnything.Worker.Preflight

/-!
# The container, from boot to exit

Three processes: `entrypoint.sh`, the worker it starts (`main_async` of `la_worker.py`) and
`la_server` (`main.rs`), which finds the worker by a socket file. Time is in milliseconds. The
statements of `entrypoint.sh` take none, but for `rm`: it passes while the script sleeps, and while
`wait -n` has nothing to report. How long a child takes for a step is free: time may pass between
any two, and none has to. So nothing here says that a boot fits into `LA_WORKER_BOOT_TIMEOUT`; the
timeout is what the server measures, on whatever time has passed. A signal can reach any process at
any time.

Before its handlers are installed a child dies of SIGTERM and SIGHUP, and ignores SIGINT, as a
shell without job control has its background processes do. A child can also end on its own with
any code but 0: by an exception, a panic, a `?` of `main` or `os._exit`. That covers whatever is not
modelled of a boot, a port that is taken for one, or a path the file system takes no socket under.
What the two programs ask of their environment is modelled (`Args.parse`, `parsePort`,
`Setup.deadlineFits`, `Setup.calibration_runs`), because there they cannot but end.

The last fields of `Container` are history.
-/

set_option autoImplicit false

namespace LocateAnything.Boot

open Framing (Bytes)
open Worker

/-! ## The processes -/

inductive Sig where
  | hup
  | int
  | kill
  | term
  deriving DecidableEq

def Sig.number : Sig → Nat
  | hup => 1
  | int => 2
  | kill => 9
  | term => 15

/-- The status of a process that died of the signal, as a shell has it. -/
def Sig.status (s : Sig) : Nat := 128 + s.number

/-- What the path of the socket leads to. -/
inductive Socket where
  | absent
  /-- A file no one listens behind. -/
  | stale
  | live
  deriving DecidableEq

/-- The listener is gone; the file stays. -/
def Socket.close : Socket → Socket
  | live => stale
  | s => s

inductive WorkerPc where
  | unborn
  /-- `validate_startup.run_all` -/
  | validating
  /-- `LocateAnythingInference(…)` -/
  | loading
  /-- `calibrate(…)` -/
  | calibrating
  /-- The stale socket. -/
  | unlinking
  /-- `start_unix_server` -/
  | binding
  /-- In front of `add_signal_handler`. -/
  | listening
  /-- `stop.wait()`, and whether `stop` is set. -/
  | serving (stop : Bool)
  /-- `server.wait_closed()` -/
  | closing
  /-- `app.lock.acquire()` and the executor. -/
  | draining
  /-- In front of the last `unlink`. -/
  | leaving
  | exited (code : Nat)
  deriving DecidableEq

inductive ServerPc where
  | unborn
  | starting
  /-- `wait_for_socket`: `metadata`, … -/
  | statting (deadline : Nat)
  /-- … `UnixStream::connect`, … -/
  | connecting (deadline : Nat)
  /-- … the look at the clock … -/
  | checking (deadline : Nat)
  /-- … and the `sleep`. -/
  | sleeping (deadline wake : Nat)
  /-- `TcpListener::bind` -/
  | binding
  /-- Clients can connect; the signal handlers are not installed. -/
  | bound
  /-- `axum::serve`, and whether the shutdown has begun. -/
  | serving (stop : Bool)
  /-- Requests in flight are drained. -/
  | stopping
  /-- The last five seconds. -/
  | flushing (wake : Nat)
  | exited (code : Nat)
  deriving DecidableEq

inductive SupervisorPc where
  /-- `LA_IPC_SOCKET` -/
  | checkingSocket
  /-- `LA_INTERNAL_PORT` -/
  | checkingPort
  /-- `rm -f` -/
  | removing
  | spawningWorker
  | spawningServer
  /-- In front of the `trap`s. -/
  | trapping
  /-- `wait -n` -/
  | waiting
  /-- `FIRST_EXIT` is known; `kill -TERM` is next. -/
  | terminating (first : Nat)
  /-- `kill -0`, with so many rounds left. -/
  | polling (first left : Nat)
  | sleeping (first left wake : Nat)
  /-- `kill -KILL` -/
  | killing (first : Nat)
  | leaving (first : Nat)
  | exited (code : Nat)
  /-- Of a signal without a trap. -/
  | died (s : Sig)
  deriving DecidableEq

def WorkerPc.gone : WorkerPc → Bool
  | exited _ => true
  | _ => false

/-- The process holds the listener. -/
def WorkerPc.listens : WorkerPc → Bool
  | listening | serving _ => true
  | _ => false

def ServerPc.gone : ServerPc → Bool
  | exited _ => true
  | _ => false

def SupervisorPc.gone : SupervisorPc → Bool
  | exited _ | died _ => true
  | _ => false

def WorkerPc.signal (s : Sig) : WorkerPc → WorkerPc
  | unborn => unborn
  | exited code => exited code
  | serving _ => if s = .kill then exited s.status else serving true
  | closing => if s = .kill then exited s.status else closing
  | draining => if s = .kill then exited s.status else draining
  | leaving => if s = .kill then exited s.status else leaving
  | pc => if s = .int then pc else exited s.status

/-- Of SIGHUP the server dies even with its handlers installed. -/
def ServerPc.signal (s : Sig) : ServerPc → ServerPc
  | unborn => unborn
  | exited code => exited code
  | serving _ => if s = .kill ∨ s = .hup then exited s.status else serving true
  | stopping => if s = .kill ∨ s = .hup then exited s.status else stopping
  | flushing wake => if s = .kill ∨ s = .hup then exited s.status else flushing wake
  | pc => if s = .int then pc else exited s.status

/-! ## The system -/

/-- The command line of `la_server`, as far as a boot depends on it. All of it comes from the
    environment. -/
structure Args where
  bind : Str
  worker_socket_timeout_secs : Nat
  max_jpeg_bytes : Nat
  max_image_dim : Nat

/-- `Args::parse`. All but the timeout are required; `number` is how `clap` reads an unsigned number
    below a bound. The path of the socket is left out: `entrypoint.sh` does not start anything
    without one, and `clap` takes any. -/
def Args.parse (number : Nat → Str → Option Nat) (env : Str → Option Str) : Option Args := do
  let bind ← env "LA_BIND".toList
  let timeout ← number (2 ^ 64) ((env "LA_WORKER_BOOT_TIMEOUT".toList).getD "240".toList)
  let max_jpeg_bytes ← (env "LA_MAX_JPEG_BYTES".toList).bind (number (2 ^ 64))
  let max_image_dim ← (env "LA_MAX_IMAGE_DIM".toList).bind (number (2 ^ 16))
  some ⟨bind, timeout, max_jpeg_bytes, max_image_dim⟩

/-- The port of a `SocketAddr`: decimal digits, without a sign, of a number below 2^16. -/
def parsePort (s : Str) : Option Nat :=
  if s ≠ [] ∧ s.all Char.isDigit = true ∧ Py.int s < 2 ^ 16 then some (Py.int s) else none

/-- The address in front of the port, as `entrypoint.sh` has it. -/
def anyAddress : Str := "0.0.0.0:".toList

/-- `args.bind.parse::<SocketAddr>()`, of an address on all interfaces. -/
def parseAddr (bind : Str) : Option Nat :=
  if anyAddress <+: bind then parsePort (bind.drop anyAddress.length) else none

/-- What a boot finds. -/
structure Setup where
  sha256 : Bytes → Str
  py : Python
  constants : Constants
  machine : Machine
  /-- The model directory when the engine looks at it again. -/
  recheck : Option Listing
  /-- The engine under calibration, call by call, and the time each call takes. -/
  run : Nat → EngineCall → Except Fault InferenceResult
  latency : Nat → ℚ
  image : CalibrationImage
  calibration_image : Str
  calibration_prompt : Str
  /-- Python's `int` of a text. -/
  integer : Str → Option Int
  /-- Python's `float` takes the text. -/
  isFloat : Str → Bool
  /-- How `clap` reads an unsigned number below a bound. -/
  number : Nat → Str → Option Nat

/-- The environment `entrypoint.sh` starts the server in. -/
def Setup.serverEnv (S : Setup) (name : Str) : Option Str :=
  if name = "LA_BIND".toList then
    some (anyAddress ++ (S.machine.environ "LA_INTERNAL_PORT".toList).getD [])
  else S.machine.environ name

def Setup.args (S : Setup) : Option Args := Args.parse S.number S.serverEnv

/-- The time `wait_for_socket` has, if it comes to that. -/
def Setup.worker_socket_timeout_secs (S : Setup) : Nat :=
  (S.args.map Args.worker_socket_timeout_secs).getD 0

/-- The address the listener is bound to. -/
def Setup.addr (S : Setup) : Option Nat := S.args.bind fun args => parseAddr args.bind

/-- `--calibration-runs`, out of the environment. In front of it the module has read the timeout, and
    either is a `ValueError` where it is no number. -/
def Setup.calibration_runs (S : Setup) : Option Int :=
  if S.isFloat ((S.machine.environ "LA_INFERENCE_TIMEOUT_S".toList).getD "600".toList) then
    S.integer ((S.machine.environ "LA_CALIBRATION_RUNS".toList).getD "6".toList)
  else none

/-- The calibration, if it comes to that. -/
def Setup.calibrate (S : Setup) : Except CalibrationFault CalibrationResult :=
  Worker.calibrate S.run S.latency S.image S.calibration_image S.calibration_prompt
    (S.calibration_runs.getD 6)

/-- The clock holds the deadline of `wait_for_socket`: its seconds are an `i64`, and to add beyond
    them is a panic. -/
def Setup.deadlineFits (S : Setup) (now : Nat) : Bool :=
  now / 1000 + S.worker_socket_timeout_secs < 2 ^ 63

structure Container where
  now : Nat
  supervisor : SupervisorPc
  worker : WorkerPc
  server : ServerPc
  socket : Socket
  /-- The worker has listened. -/
  listened : Bool
  /-- How often the server has looked for the socket. -/
  probes : Nat
  /-- When a child ended or a signal was trapped, whichever was first. -/
  due : Option Nat
  /-- The signals trapped. -/
  trapped : List Sig
  deriving DecidableEq

inductive Child where
  | worker
  | server
  deriving DecidableEq

inductive Action where
  | elapse (d : Nat)
  /-- A signal to `entrypoint.sh`. -/
  | signal (s : Sig)
  | signalChild (child : Child) (s : Sig)
  /-- `entrypoint.sh` goes on. -/
  | supervise
  /-- `rm -f` succeeds or not. -/
  | remove (ok : Bool)
  /-- `wait -n` reports the child. -/
  | reap (child : Child)
  /-- The worker goes on, … -/
  | work
  /-- … or fails. -/
  | workerFails (code : Nat)
  /-- The server goes on, … -/
  | serve
  /-- … learns what becomes of `connect`, … -/
  | connect (ok : Bool)
  /-- … or fails. -/
  | serverFails (code : Nat)

namespace Container

/-- When the first child ends or the first signal is trapped. -/
def mark (c : Container) : Option Nat := c.due.or (some c.now)

def moveWorker (c : Container) (pc : WorkerPc) : Container :=
  { c with
    worker := pc
    socket := if pc.listens then c.socket else c.socket.close
    due := if pc.gone then c.mark else c.due }

def moveServer (c : Container) (pc : ServerPc) : Container :=
  { c with server := pc, due := if pc.gone then c.mark else c.due }

def goto (c : Container) (pc : SupervisorPc) : Container := { c with supervisor := pc }

/-- `kill -s` to both children. -/
def signalBoth (c : Container) (s : Sig) : Container :=
  (c.moveWorker (c.worker.signal s)).moveServer (c.server.signal s)

/-- The action leads to `c'` wherever its guard holds. -/
def when (guard : Bool) (c' : Container) : Option Container := if guard then some c' else none

def mayElapse (c : Container) (d : Nat) : Bool :=
  match c.supervisor with
  | .removing | .exited _ | .died _ => true
  | .waiting => !c.worker.gone && !c.server.gone
  | .sleeping _ _ wake => c.now + d ≤ wake
  | _ => false

/-- A signal to `entrypoint.sh`: without a trap it dies, with one it forwards the signal, and a
    `wait -n` under way returns. -/
def trap (c : Container) (s : Sig) : Container :=
  match c.supervisor with
  | .exited _ | .died _ => c
  | .checkingSocket | .checkingPort | .removing | .spawningWorker | .spawningServer | .trapping =>
    c.goto (.died s)
  | pc =>
    if s = .hup ∨ s = .kill then c.goto (.died s)
    else
      { c.signalBoth s with
        supervisor := if pc = .waiting then .terminating s.status else pc
        due := c.mark
        trapped := s :: c.trapped }

/-- A variable `[[ -z "${…:-}" ]]` looks at. -/
def unset (S : Setup) (name : Str) : Bool := (S.machine.environ name).getD [] = []

/-- **The next statement of `entrypoint.sh`.** -/
def supervise (S : Setup) (c : Container) : Option Container :=
  match c.supervisor with
  | .checkingSocket =>
    some (c.goto (if unset S "LA_IPC_SOCKET".toList then .exited 64 else .checkingPort))
  | .checkingPort =>
    some (c.goto (if unset S "LA_INTERNAL_PORT".toList then .exited 64 else .removing))
  | .spawningWorker => some ((c.moveWorker .validating).goto .spawningServer)
  | .spawningServer => some ((c.moveServer .starting).goto .trapping)
  | .trapping => some (c.goto .waiting)
  | .terminating first => some ((c.signalBoth .term).goto (.polling first 10))
  | .polling first left =>
    some (c.goto (if left = 0 ∨ c.worker.gone ∧ c.server.gone then .killing first
      else .sleeping first (left - 1) (c.now + 500)))
  | .sleeping first left wake => when (wake ≤ c.now) (c.goto (.polling first left))
  | .killing first => some ((c.signalBoth .kill).goto (.leaving first))
  | .leaving first => some (c.goto (.exited first))
  | .removing | .waiting | .exited _ | .died _ => none

def reap (c : Container) (child : Child) : Option Container :=
  match c.supervisor, child, c.worker, c.server with
  | .waiting, .worker, .exited code, _ => some (c.goto (.terminating code))
  | .waiting, .server, _, .exited code => some (c.goto (.terminating code))
  | _, _, _, _ => none

/-- A check is passed, or the worker exits with 1. -/
def proceed {ε α : Type} (pc : WorkerPc) : Except ε α → WorkerPc
  | .ok _ => pc
  | .error _ => .exited 1

/-- **The next step of the worker.** -/
def work (S : Setup) (c : Container) : Option Container :=
  match c.worker with
  -- the variables of the command line are read before `run_all` is called
  | .validating =>
    some (c.moveWorker (if S.calibration_runs.isSome then
      proceed .loading (runAll S.sha256 S.py S.constants S.machine) else .exited 1))
  | .loading => some (c.moveWorker (proceed .calibrating (validateModelDir S.sha256 S.recheck)))
  | .calibrating => some (c.moveWorker (proceed .unlinking S.calibrate))
  | .unlinking => some { c.moveWorker .binding with socket := .absent }
  | .binding => some { c.moveWorker .listening with socket := .live, listened := true }
  | .listening => some (c.moveWorker (.serving false))
  | .serving true => some (c.moveWorker .closing)
  | .closing => some (c.moveWorker .draining)
  | .draining => some (c.moveWorker .leaving)
  | .leaving => some { c.moveWorker (.exited 0) with socket := .absent }
  | .unborn | .serving false | .exited _ => none

/-- **The next step of the server.** -/
def serve (S : Setup) (c : Container) : Option Container :=
  match c.server with
  -- `clap` exits with 2 where it cannot make `Args` of the environment, and a panic aborts
  | .starting =>
    some (c.moveServer (if !S.args.isSome then .exited 2
      else if S.deadlineFits c.now then .statting (c.now + 1000 * S.worker_socket_timeout_secs)
      else .exited 134))
  | .statting deadline =>
    some { c.moveServer (if c.socket = .absent then .checking deadline else .connecting deadline)
      with probes := c.probes + 1 }
  | .checking deadline =>
    some (c.moveServer (if deadline ≤ c.now then .exited 1 else .sleeping deadline (c.now + 500)))
  | .sleeping deadline wake => when (wake ≤ c.now) (c.moveServer (.statting deadline))
  -- the address is parsed here, behind the wait
  | .binding => some (c.moveServer (if S.addr.isSome then .bound else .exited 1))
  | .bound => some (c.moveServer (.serving false))
  | .serving true => some (c.moveServer .stopping)
  | .stopping => some (c.moveServer (.flushing (c.now + 5000)))
  | .flushing wake => when (wake ≤ c.now) (c.moveServer (.exited 0))
  | .unborn | .connecting _ | .serving false | .exited _ => none

/-- A connection is made only to a listener; it can fail for other reasons. -/
def connect (c : Container) (ok : Bool) : Option Container :=
  match c.server with
  | .connecting deadline =>
    when (!ok || decide (c.socket = .live))
      (c.moveServer (if ok then .binding else .checking deadline))
  | _ => none

/-- **One step of the container.** -/
def step (S : Setup) (c : Container) : Action → Option Container
  | .elapse d => when (c.mayElapse d) { c with now := c.now + d }
  | .signal s => some (c.trap s)
  | .signalChild .worker s => some (c.moveWorker (c.worker.signal s))
  | .signalChild .server s => some (c.moveServer (c.server.signal s))
  | .supervise => c.supervise S
  | .remove ok =>
    when (c.supervisor = .removing)
      { c.goto .spawningWorker with socket := if ok then .absent else c.socket }
  | .reap child => c.reap child
  | .work => c.work S
  | .workerFails code =>
    when (c.worker ≠ .unborn && !c.worker.gone && decide (code ≠ 0)) (c.moveWorker (.exited code))
  | .serve => c.serve S
  | .connect ok => c.connect ok
  | .serverFails code =>
    when (c.server ≠ .unborn && !c.server.gone && decide (code ≠ 0)) (c.moveServer (.exited code))

def Step (S : Setup) (c : Container) (a : Action) (c' : Container) : Prop := c.step S a = some c'

/-- A container before `entrypoint.sh` has done anything; the volume of the socket may hold the
    file of an earlier one. -/
def start (now : Nat) (stale : Bool) : Container :=
  { now := now, supervisor := .checkingSocket, worker := .unborn, server := .unborn,
    socket := if stale then .stale else .absent, listened := false, probes := 0, due := none,
    trapped := [] }

end Container

end LocateAnything.Boot
