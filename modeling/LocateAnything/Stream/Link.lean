import LocateAnything.Bridge.Exchange

/-!
# Clients, edge and worker, connected

Every WebSocket has a handler of the edge (`handle_ws`), and the handler a Unix socket of its
own to the worker, where a task (`handle_connection`) serves it. The sockets are byte streams:
what is written arrives in order, in pieces of any size. The tasks share one lock and one
process.

A step is one piece of code between two awaits, of either side, or a piece of a stream moving
on. Both programs are run with their JSON libraries, which read back what the other side's
writes (`World`); the engine is a relation, so that it may come to anything.

Two things are left out because they cannot mix up replies. The timers and the shutdown
channel of the handler are a single step here, `leave`, that may be taken at the top of the
loop at any time; what they are for is followed elsewhere. And the limit on an inference is
one of the outcomes of the engine. What is kept is every buffer a byte can be in between the
two programs, since a reply that goes to the wrong frame would have to wait in one of them.
-/

set_option autoImplicit false

namespace LocateAnything.Stream

open Framing (Bytes Decoded encode decode)
open Edge (PendingFrame Response processBinary)
open Worker (Job Routed Sent)
open Bridge (headerOf)

/-- What the two programs are run with. The two hypotheses are the only thing that is known of
    the libraries: each reader is asked for what the other program's writer has written. -/
structure World where
  cfg : Edge.Config
  py : Worker.Python
  /-- `serde_json::to_string` -/
  toText : Json Str → Bytes
  /-- `serde_json::from_slice` -/
  fromSlice : Bytes → Option (Json Str)
  /-- What `engine.run` may come to. -/
  engine : Worker.EngineCall → Worker.EngineOutcome → Prop
  /-- What a control query may come to. -/
  control : Except Worker.Fault (Json Str) → Prop
  /-- The worker reads the headers of the edge. -/
  loads_toText : ∀ p, py.loads (toText (headerOf p)) = .ok (headerOf p)
  /-- The edge reads the replies of the worker, unless they hold what JSON has no word for. -/
  fromSlice_dumps : ∀ d, fromSlice (py.dumps d) = none ∨ fromSlice (py.dumps d) = some d

/-- What a client sends. -/
inductive Message where
  | binary (b : Bytes)
  /-- Text, Ping and Pong. -/
  | other

def Message.binary? : Message → Option Bytes
  | binary b => some b
  | other => none

/-- What happens on a WebSocket: a Binary message is taken up, a Text is sent. -/
inductive WsEvent where
  | frame (b : Bytes)
  | text (r : Response)

def WsEvent.frame? : WsEvent → Option Bytes
  | frame b => some b
  | text _ => none

/-- Where a handler is. -/
inductive EdgePc where
  | connecting
  /-- At the top of its loop. -/
  | top
  | processing (b : Bytes)
  | rejecting (frame_id : Str) (fault : Edge.FrameFault)
  /-- In `infer`: bytes not written yet, and frames not encoded yet. -/
  | sending (p : PendingFrame) (out : Bytes) (rest : List Bytes)
  /-- In `infer`, behind both sends. -/
  | awaiting (p : PendingFrame)
  | replying (r : Response)
  | closing
  | closed

/-- Where a task of the worker is. -/
inductive Task where
  /-- At the top of its loop. -/
  | reading
  | payload (header : Bytes)
  | routing (header payload : Bytes)
  | controlling (frame_id : Str)
  /-- At the lock. -/
  | queued (job : Job)
  /-- In the engine, with the lock. -/
  | running (job : Job)
  /-- In front of `_hard_exit_for_restart`. -/
  | exiting
  | ended

structure Conn where
  /-- Sent by the client, not received yet. -/
  inbox : List Message
  edge : EdgePc
  /-- On the way to the worker. -/
  up : Bytes
  /-- On the way to the edge, or in the buffer of its codec. -/
  down : Bytes
  /-- In the write buffer of the worker. -/
  outbuf : Bytes
  task : Task
  /-- History: what the client has sent … -/
  sent : List Message
  /-- … what has happened on the WebSocket … -/
  log : List WsEvent
  /-- … and what the engine has been called with for this connection, and come to. -/
  calls : List (Worker.EngineCall × Worker.EngineOutcome)

namespace Conn

variable (W : World)

/-- Where `process_binary` takes a handler. A pending frame has two messages to be sent. -/
def afterProcessing (o : Edge.BinaryOutcome) : EdgePc :=
  match o with
  | .pending p => .sending p [] [W.toText (headerOf p), p.jpeg]
  | .fatalFraming _ => .closing
  | .perFrame frame_id fault => .rejecting frame_id fault

/-- Write what a request has come to. A reply that does not fit leaves the handler of the
    worker with an exception, so the connection ends without it. -/
def write (c : Conn) (s : Sent) : Conn :=
  match s.doc with
  | some doc =>
    { c with
      outbuf := c.outbuf ++ encode (W.py.dumps doc)
      task := if s.exits then .exiting else .reading }
  | none => { c with task := if s.exits then .exiting else .ended }

/-- Go where `route` takes a request. -/
def routed (c : Conn) : Routed → Conn
  | .unusable doc =>
    c.write W ⟨if (W.py.dumps doc).length ≤ Worker.maxFrameBytes then some doc else none, false⟩
  | .capabilities frame_id | .info frame_id => { c with task := .controlling frame_id }
  | .refused frame_id doc => c.write W (Worker.send W.py frame_id (.ok doc))
  | .infer job => { c with task := .queued job }

/-- The engine has come to an outcome. -/
def called (c : Conn) (job : Job) (o : Worker.EngineOutcome) : Conn :=
  { c with calls := c.calls ++ [(job.call, o)] }

/-- The worker process is gone, with what it had not written. -/
def crash (c : Conn) : Conn := { c with task := .ended, outbuf := [] }

end Conn

/-- What a step does with the lock. -/
inductive LockUse where
  | none
  | acquire
  | release

open Conn in
/-- **One step on a connection.** -/
inductive ConnStep (W : World) : LockUse → Conn → Conn → Prop where
  -- the client
  | sends (c : Conn) (m : Message) :
    ConnStep W .none c { c with inbox := c.inbox ++ [m], sent := c.sent ++ [m] }
  -- `handle_ws`
  | connect {c : Conn} : c.edge = .connecting → c.task = .reading →
    ConnStep W .none c { c with edge := .top }
  | connectFails {c : Conn} : c.edge = .connecting →
    ConnStep W .none c { c with edge := .closing }
  /-- Shutdown, the idle timeout, or the end of the WebSocket, a message beyond its size limit
      included. -/
  | leave {c : Conn} {pc : EdgePc} : c.edge = .top → pc = .closing ∨ pc = .closed →
    ConnStep W .none c { c with edge := pc }
  | ignore {c : Conn} {rest : List Message} : c.edge = .top → c.inbox = .other :: rest →
    ConnStep W .none c { c with inbox := rest }
  | receive {c : Conn} {b : Bytes} {rest : List Message} : c.edge = .top →
    c.inbox = .binary b :: rest →
    ConnStep W .none c
      { c with inbox := rest, edge := .processing b, log := c.log ++ [.frame b] }
  | process {c : Conn} {b : Bytes} : c.edge = .processing b →
    ConnStep W .none c { c with edge := afterProcessing W (processBinary W.cfg b) }
  | reject {c : Conn} {frame_id : Str} {fault : Edge.FrameFault} :
    c.edge = .rejecting frame_id fault →
    ConnStep W .none c
      { c with
        edge := .top
        log := c.log ++ [.text (.error ⟨frame_id, fault.code, fault.message⟩)] }
  | answer {c : Conn} {r : Response} : c.edge = .replying r →
    ConnStep W .none c { c with edge := .top, log := c.log ++ [.text r] }
  | rejectFails {c : Conn} {frame_id : Str} {fault : Edge.FrameFault} :
    c.edge = .rejecting frame_id fault → ConnStep W .none c { c with edge := .closed }
  | answerFails {c : Conn} {r : Response} : c.edge = .replying r →
    ConnStep W .none c { c with edge := .closed }
  | close {c : Conn} : c.edge = .closing → ConnStep W .none c { c with edge := .closed }
  -- `infer`
  | encodes {c : Conn} {p : PendingFrame} {d : Bytes} {rest : List Bytes} :
    c.edge = .sending p [] (d :: rest) → d.length ≤ Edge.maxFrameLength →
    ConnStep W .none c { c with edge := .sending p (encode d) rest }
  | encodeFails {c : Conn} {p : PendingFrame} {d : Bytes} {rest : List Bytes} :
    c.edge = .sending p [] (d :: rest) → Edge.maxFrameLength < d.length →
    ConnStep W .none c { c with edge := .closing }
  | flush {c : Conn} {p : PendingFrame} {now later : Bytes} {rest : List Bytes} :
    c.edge = .sending p (now ++ later) rest →
    ConnStep W .none c { c with edge := .sending p later rest, up := c.up ++ now }
  | flushFails {c : Conn} {p : PendingFrame} {out : Bytes} {rest : List Bytes} :
    c.edge = .sending p out rest → c.task = .ended →
    ConnStep W .none c { c with edge := .closing }
  | awaits {c : Conn} {p : PendingFrame} : c.edge = .sending p [] [] →
    ConnStep W .none c { c with edge := .awaiting p }
  | reply {c : Conn} {p : PendingFrame} {d rest : Bytes} {r : Response} :
    c.edge = .awaiting p → decode Edge.maxFrameLength c.down = .frame d rest →
    Edge.infer W.fromSlice (.reply d) = .ok r →
    ConnStep W .none c { c with edge := .replying r, down := rest }
  | badReply {c : Conn} {p : PendingFrame} {d rest : Bytes} {e : Edge.ServerError} :
    c.edge = .awaiting p → decode Edge.maxFrameLength c.down = .frame d rest →
    Edge.infer W.fromSlice (.reply d) = .error e →
    ConnStep W .none c { c with edge := .closing, down := rest }
  | noReply {c : Conn} {p : PendingFrame} : c.edge = .awaiting p →
    decode Edge.maxFrameLength c.down = .tooLong ∨
      decode Edge.maxFrameLength c.down = .more ∧ c.task = .ended ∧ c.outbuf = [] →
    ConnStep W .none c { c with edge := .closing }
  -- `handle_connection`
  | readHeader {c : Conn} {d rest : Bytes} : c.task = .reading →
    decode Worker.maxFrameBytes c.up = .frame d rest →
    ConnStep W .none c { c with task := .payload d, up := rest }
  | readPayload {c : Conn} {header d rest : Bytes} : c.task = .payload header →
    decode Worker.maxFrameBytes c.up = .frame d rest →
    ConnStep W .none c { c with task := .routing header d, up := rest }
  | readFails {c : Conn} : c.task = .reading ∨ (∃ header, c.task = .payload header) →
    decode Worker.maxFrameBytes c.up = .tooLong ∨
      decode Worker.maxFrameBytes c.up = .more ∧ c.edge = .closed →
    ConnStep W .none c { c with task := .ended }
  | route {c : Conn} {header payload : Bytes} : c.task = .routing header payload →
    ConnStep W .none c (c.routed W (Worker.route W.py header payload))
  | answerControl {c : Conn} {frame_id : Str} {o : Except Worker.Fault (Json Str)} :
    c.task = .controlling frame_id → W.control o →
    ConnStep W .none c (c.write W (Worker.send W.py frame_id o))
  | acquire {c : Conn} {job : Job} : c.task = .queued job →
    ConnStep W .acquire c { c with task := .running job }
  | finish {c : Conn} {job : Job} {o : Worker.EngineOutcome} : c.task = .running job →
    W.engine job.call o →
    ConnStep W .release c
      ((c.called job o).write W (Worker.send W.py job.frame_id (Worker.inferReply job o)))
  /-- The reply cannot be written: the edge has closed its end. -/
  | finishLost {c : Conn} {job : Job} {o : Worker.EngineOutcome} : c.task = .running job →
    W.engine job.call o → c.edge = .closed →
    ConnStep W .release c ((c.called job o).write W
      ⟨none, (Worker.send W.py job.frame_id (Worker.inferReply job o)).exits⟩)
  | flushReply {c : Conn} {now later : Bytes} : c.outbuf = now ++ later →
    ConnStep W .none c { c with down := c.down ++ now, outbuf := later }
  /-- The task is cancelled. -/
  | cancel {c : Conn} : (∀ job, c.task ≠ .running job) →
    ConnStep W .none c { c with task := .ended }
  | cancelRunning {c : Conn} {job : Job} : c.task = .running job →
    ConnStep W .release c { c with task := .ended }

/-! ## The system -/

structure System (ι : Type) where
  conns : ι → Conn
  /-- The connection whose task holds the lock. -/
  lock : Option ι

/-- The lock after a step on connection `i`, if it allows the step. It is a single step to
    take it, whoever waits: in which order the tasks come to it matters to none of the
    results. -/
def lockAfter {ι : Type} (lock : Option ι) (i : ι) : LockUse → Option (Option ι)
  | .none => some lock
  | .acquire => if lock.isNone then some (some i) else none
  | .release => some none

/-- **One step of the system**: on some connection, or the end of the worker process. -/
inductive Step {ι : Type} [DecidableEq ι] (W : World) :
    System ι → Option ι → System ι → Prop where
  | conn {S : System ι} {i : ι} {u : LockUse} {c : Conn} {lock : Option ι} :
    ConnStep W u (S.conns i) c → lockAfter S.lock i u = some lock →
    Step W S (some i) ⟨Function.update S.conns i c, lock⟩
  | crash {S : System ι} : Step W S none ⟨fun i => (S.conns i).crash, none⟩

/-- Nobody has connected yet. -/
def Conn.start : Conn :=
  { inbox := [], edge := .connecting, up := [], down := [], outbuf := [], task := .reading,
    sent := [], log := [], calls := [] }

def System.start {ι : Type} : System ι := ⟨fun _ => .start, none⟩

end LocateAnything.Stream
