import LocateAnything.Bridge.Egress
import LocateAnything.Bridge.Geometry
import LocateAnything.Stream.Correlation
import Mathlib.Data.List.Forall2
import Mathlib.Data.Set.Countable

/-!
# No client waits in vain

One lock is between all clients, and an exchange takes both programs in turns. Where the
engine comes to outcomes that can be reported, nothing of this can block: from every state of
every run, whatever the others are doing, the messages of a client can all be answered,
without anything else being sent (`messages_answered`).

The argument is a rank (`System.rank`): outside the goal there is always a step, of the
connection or of the one that holds the lock, that lowers it. The rank counts what is still to
be done for one connection, in the order in which it is done: messages in the inbox, frames to
be sent to the worker, the stages of the worker's task, the reply on its way back, and one
more while the lock is held by whoever it may be.

## What is assumed, and what it is for

`Calm` collects what is asked of the surroundings. The engine comes to *some* outcome for
every call: a model that never returns holds the lock, and everything with it. The outcome is
one behind which the worker goes on, since a worker that exits answers no one. The reply can
be read by the edge, which is proved of the worker's replies elsewhere and assumed here of
their bytes; and the frames of both sides fit the length the codecs take.

The result is of the form "a run leads there". It says that nothing the system can do leads
into a corner from which a message can no longer be answered; that the run is taken is up to a
scheduler, of which nothing is said.
-/

set_option autoImplicit false

namespace LocateAnything.Stream

open Framing (Bytes decode encode stream decode_eq_frame_iff)
open Edge (PendingFrame Response processBinary)
open Bridge (headerOf jobOf)
open Transition (Run)

variable {W : World}

/-! ## Dialogues, without the turns -/

def WsEvent.text? : WsEvent → Option Response
  | frame _ => none
  | text r => some r

/-- The Texts answer the first messages, one each; what is pending is the one message that may
    be ahead. -/
theorem Dialogue.forall₂ {calls : Calls} {log : List WsEvent} {pending : Option Bytes}
    (h : Dialogue W calls log pending) :
    ∃ answered, log.filterMap WsEvent.frame? = answered ++ pending.toList ∧
      List.Forall₂ (Answers W calls) answered (log.filterMap WsEvent.text?) := by
  induction h with
  | start => exact ⟨[], rfl, .nil⟩
  | frame b _ ih =>
    obtain ⟨answered, hframes, hall⟩ := ih
    refine ⟨answered, ?_, ?_⟩
    · simpa [List.filterMap_cons, WsEvent.frame?] using hframes
    · simpa [List.filterMap_cons, WsEvent.text?] using hall
  | @text log b r _ ha ih =>
    obtain ⟨answered, hframes, hall⟩ := ih
    refine ⟨answered ++ [b], ?_, ?_⟩
    · simpa [List.filterMap_cons, WsEvent.frame?] using hframes
    · rw [List.filterMap_append]
      exact List.rel_append hall (.cons ha .nil)

/-! ## What holds of all connections -/

/-- What the engine has come to for a connection, it may come to. It is kept beside the
    invariant because the answers speak of recorded calls and the goal of the engine. -/
def FromEngine (W : World) (c : Conn) : Prop := ∀ e ∈ c.calls, W.engine e.1 e.2

/-- A call is recorded with the outcome the engine came to. -/
theorem FromEngine.called {c : Conn} {job : Worker.Job} {o : Worker.EngineOutcome}
    {s : Worker.Sent} (h : FromEngine W c) (ho : W.engine job.call o) :
    FromEngine W ((c.called job o).write W s) := by
  obtain ⟨-, -, -, -, hcalls⟩ := write_frame (W := W) (c.called job o) s
  intro e he
  rw [hcalls, Conn.called, List.mem_append, List.mem_singleton] at he
  rcases he with he | rfl
  · exact h e he
  · exact ho

theorem FromEngine.step {u : LockUse} {c c' : Conn} (h : FromEngine W c)
    (hs : ConnStep W u c c') : FromEngine W c' := by
  cases hs with
  | route _ =>
    rw [FromEngine, (routed_frame _ _).2.2.2.2]
    exact h
  | answerControl _ _ =>
    rw [FromEngine, (write_frame _ _).2.2.2.2]
    exact h
  | finish _ ho => exact h.called ho
  | finishLost _ ho _ => exact h.called ho
  | _ => exact h

/-- A task in the engine stays there unless it gives the lock back. -/
theorem running_of_step {u : LockUse} {c c' : Conn} {job : Worker.Job} (hs : ConnStep W u c c')
    (hu : u ≠ .release) (h : c.task = .running job) : c'.task = .running job := by
  cases hs with
  | readHeader ht _ | readPayload ht _ | route ht | answerControl ht _ | acquire ht =>
    exact absurd (h.symm.trans ht) (by simp)
  | readFails ht _ =>
    rcases ht with ht | ⟨_, ht⟩ <;> exact absurd (h.symm.trans ht) (by simp)
  | cancel hc => exact absurd h (hc job)
  | finish _ _ | finishLost _ _ _ | cancelRunning _ => exact absurd rfl hu
  | _ => exact h

variable (W) in
/-- What holds in every state of every run. `lock` is what the rank needs of the others:
    whoever holds the lock is in the engine, and so can be led out of it. -/
structure System.Inv {ι : Type} (S : System ι) : Prop where
  conns : ∀ i, Stream.Inv W (S.conns i) ∧ FromEngine W (S.conns i)
  lock : ∀ i, S.lock = some i → ∃ job, (S.conns i).task = .running job

section System
variable {ι : Type} [DecidableEq ι] {S S' : System ι}

/-- A step changes one connection, and the lock only where that connection takes it or gives
    it back. -/
theorem System.Inv.step {a : Option ι} (h : S.Inv W) (hs : Step W S a S') : S'.Inv W := by
  cases hs with
  | @conn i u c lock hc hl =>
    refine ⟨fun j => ?_, fun j hj => ?_⟩
    · rcases eq_or_ne j i with rfl | hne
      · simpa using And.intro ((h.conns j).1.step hc) ((h.conns j).2.step hc)
      · simpa [hne] using h.conns j
    · cases u with
      | none =>
        obtain rfl := Option.some.inj hl
        obtain ⟨job, hjob⟩ := h.lock j hj
        rcases eq_or_ne j i with rfl | hne
        · exact ⟨job, by simpa using running_of_step hc (by simp) hjob⟩
        · exact ⟨job, by simpa [hne] using hjob⟩
      | acquire =>
        simp only [lockAfter, Option.ite_none_right_eq_some, Option.some.injEq] at hl
        obtain rfl := Option.some.inj (hl.2.trans hj)
        cases hc with
        | @acquire _ job _ => exact ⟨job, by simp⟩
      | release =>
        obtain rfl := Option.some.inj hl
        exact absurd hj (by simp)
  | crash =>
    exact ⟨fun j => ⟨(h.conns j).1.worker (.ended List.nil_prefix), (h.conns j).2⟩,
      fun j hj => absurd hj (by simp)⟩

theorem System.inv_of_run {as : List (Option ι)} (h : Run (Step W) System.start as S) :
    S.Inv W :=
  h.invariant (fun _ _ _ hi hs => hi.step hs)
    ⟨fun _ => ⟨.start, fun _ he => absurd he List.not_mem_nil⟩,
      fun _ hj => absurd hj (by simp [start])⟩

end System

/-! ## What lets an exchange be completed -/

variable (W) in
/-- The engine comes to outcomes behind which the worker goes on, what it replies to a Frame
    can be read, and the frames of both sides fit. -/
structure Calm : Prop where
  engine : ∀ call, ∃ o, W.engine call o
  goes_on : ∀ (job : Worker.Job) o, W.engine job.call o →
    (Worker.send W.py job.frame_id (Worker.inferReply job o)).exits = false
  replies : ∀ b p o, processBinary W.cfg b = .pending p → W.engine (jobOf p).call o →
    ∃ doc r, (Worker.send W.py p.header.frame_id (Worker.inferReply (jobOf p) o)).doc = some doc ∧
      Edge.infer W.fromSlice (.reply (W.py.dumps doc)) = .ok r
  header : ∀ b p, processBinary W.cfg b = .pending p →
    (W.toText (headerOf p)).length ≤ Edge.maxFrameLength
  jpeg : W.cfg.maxJpegBytes ≤ Edge.maxFrameLength

/-- Neither side has given up. It is the condition under which a connection is owed anything,
    and it has to be kept on the way, for this connection and for all others. -/
structure Alive (c : Conn) : Prop where
  closing : c.edge ≠ .closing
  closed : c.edge ≠ .closed
  exiting : c.task ≠ .exiting
  ended : c.task ≠ .ended

/-- Between two requests a task is back at its read, unless it is on its way out. -/
theorem Quiet.reading {up reply : Bytes} {task : Task} (h : Quiet up reply task)
    (hx : task ≠ .exiting) (he : task ≠ .ended) : task = .reading := by
  rcases h.task with ht | ht | ht
  · exact ht
  · exact absurd ht hx
  · exact absurd ht he

/-- How far a task is from its reply. Between `running` and `queued` a number is left out, for
    the lock that is taken there. -/
def Task.stage : Task → Nat
  | reading => 10
  | payload _ => 9
  | routing _ _ => 8
  | queued _ => 7
  | running _ => 5
  | controlling _ | exiting | ended => 0

/-- How far a handler is from the top of its loop. While it awaits a reply it is the task's
    distance that counts, until the reply is out; then that of the bytes on their way. -/
def Conn.stage (c : Conn) : Nat :=
  match c.edge with
  | .processing _ => 20
  | .sending _ out rest => 13 + 2 * rest.length + if out = [] then 0 else 1
  | .awaiting _ =>
    if c.down ++ c.outbuf = [] then c.task.stage else if c.outbuf = [] then 2 else 3
  | .connecting | .rejecting _ _ | .replying _ => 1
  | .top | .closing | .closed => 0

theorem Task.stage_le (t : Task) : t.stage ≤ 10 := by cases t <;> simp [stage]

theorem Conn.stage_le {c : Conn} {p : PendingFrame} (h : c.edge = .awaiting p) : c.stage ≤ 10 := by
  simp only [stage, h]
  split
  · exact c.task.stage_le
  · split <;> omega

/-- How far connection `i` is from having all its messages answered. A message weighs more
    than all the stages of the one before it together, so that taking it up lowers the rank.
    -/
def System.rank {ι : Type} (i : ι) (S : System ι) : Nat :=
  30 * (S.conns i).inbox.length + (S.conns i).stage + if S.lock.isSome then 1 else 0

/-! ## A step of the connection -/

section Progress
variable {ι : Type} [DecidableEq ι] {S : System ι} {i : ι}

variable (W) in
/-- Connection `i` has come here from `S₀` and can go on, and no connection has been given up.
    Nothing has been sent on it either: the client is not asked to help. -/
structure Going (S₀ : System ι) (i : ι) (S : System ι) : Prop where
  inv : S.Inv W
  alive : Alive (S.conns i)
  others : ∀ j, Alive (S₀.conns j) → Alive (S.conns j)
  sent_eq : (S.conns i).sent = (S₀.conns i).sent

variable (W) in
/-- There is a step, and it lowers the rank. -/
def Lowers (S₀ : System ι) (i : ι) (S : System ι) : Prop :=
  ∃ a S', Step W S a S' ∧ Going W S₀ i S' ∧ S'.rank i < S.rank i

variable {S₀ : System ι}

/-- A step of the connection itself. All the others in this section come down to this one. -/
theorem Going.conn {u : LockUse} {c : Conn} {lock : Option ι} (h : Going W S₀ i S)
    (hs : ConnStep W u (S.conns i) c) (hl : lockAfter S.lock i u = some lock) (ha : Alive c)
    (hsent : c.sent = (S.conns i).sent)
    (hrank : 30 * c.inbox.length + c.stage + (if lock.isSome then 1 else 0) < S.rank i) :
    Lowers W S₀ i S := by
  have hstep := Step.conn hs hl
  refine ⟨_, _, hstep, ⟨h.inv.step hstep, by simpa using ha, fun j hj => ?_, ?_⟩, ?_⟩
  · rcases eq_or_ne j i with rfl | hne
    · simpa using ha
    · simpa [hne] using h.others j hj
  · simpa using hsent.trans h.sent_eq
  · simpa [System.rank] using hrank

/-- One that leaves the lock and the inbox. -/
theorem Going.free {c : Conn} (h : Going W S₀ i S) (hs : ConnStep W .none (S.conns i) c)
    (ha : Alive c) (hsent : c.sent = (S.conns i).sent) (hinbox : c.inbox = (S.conns i).inbox)
    (hstage : c.stage < (S.conns i).stage) : Lowers W S₀ i S := by
  refine h.conn hs rfl ha hsent ?_
  rw [System.rank, hinbox]
  omega

/-- One that may take the lock, which costs one, and so has to be two stages nearer. -/
theorem Going.locking {u : LockUse} {c : Conn} {lock : Option ι} (h : Going W S₀ i S)
    (hs : ConnStep W u (S.conns i) c) (hl : lockAfter S.lock i u = some lock) (ha : Alive c)
    (hsent : c.sent = (S.conns i).sent) (hinbox : c.inbox = (S.conns i).inbox)
    (hstage : c.stage + 1 < (S.conns i).stage) : Lowers W S₀ i S := by
  refine h.conn hs hl ha hsent ?_
  rw [System.rank, hinbox]
  split <;> omega

theorem Conn.write_doc {c : Conn} {s : Worker.Sent} {doc : Json Str} (hdoc : s.doc = some doc)
    (hexits : s.exits = false) : c.write W s =
      { c with outbuf := c.outbuf ++ encode (W.py.dumps doc), task := .reading } := by
  simp [write, hdoc, hexits]

/-- A task that comes back from the engine has its reply, and goes on. -/
theorem Alive.finish {c : Conn} {job : Worker.Job} {o : Worker.EngineOutcome} (ha : Alive c)
    (hinv : Inv W c) (hcalm : Calm W) (ht : c.task = .running job) (ho : W.engine job.call o) :
    Alive ((c.called job o).write W
      (Worker.send W.py job.frame_id (Worker.inferReply job o))) := by
  have hquiet : ∀ {up reply : Bytes}, ¬ Quiet up reply c.task := by
    intro up reply hq
    exact absurd hq.task (by simp [ht])
  have hserves : ∀ {b p todo up reply}, processBinary W.cfg b = .pending p →
      Serves W c.calls p todo up reply c.task → Alive ((c.called job o).write W
        (Worker.send W.py job.frame_id (Worker.inferReply job o))) := by
    intro b p todo up reply hp hv
    rw [ht] at hv
    obtain ⟨rfl, -⟩ := hv.running_inv
    obtain ⟨doc, -, hdoc, -⟩ := hcalm.replies b p o hp ho
    show Alive ((c.called (jobOf p) o).write W
      (Worker.send W.py p.header.frame_id (Worker.inferReply (jobOf p) o)))
    rw [Conn.write_doc hdoc (hcalm.goes_on (jobOf p) o ho)]
    exact ⟨ha.closing, ha.closed, by simp, by simp⟩
  obtain ⟨pending, -, hphase⟩ := hinv.phase
  unfold Phase at hphase
  cases he : c.edge with
  | connecting | top | processing b =>
    simp only [he] at hphase
    exact absurd hphase.2 hquiet
  | rejecting frame_id fault =>
    simp only [he] at hphase
    obtain ⟨_, _, _, hq⟩ := hphase
    exact absurd hq hquiet
  | replying r =>
    simp only [he] at hphase
    obtain ⟨_, _, _, hq⟩ := hphase
    exact absurd hq hquiet
  | sending p out rest =>
    simp only [he] at hphase
    obtain ⟨_, _, hp, _, hv⟩ := hphase
    exact hserves hp hv
  | awaiting p =>
    simp only [he] at hphase
    obtain ⟨_, _, hp, _, hv⟩ := hphase
    exact hserves hp hv
  | closing => exact absurd he ha.closing
  | closed => exact absurd he ha.closed

/-- The holder of the lock, if it is another, gives it back. This is the one step that is not
    the connection's own. -/
theorem Going.unlock (h : Going W S₀ i S) (hcalm : Calm W) {j : ι} (hj : S.lock = some j)
    (hne : j ≠ i) : Lowers W S₀ i S := by
  obtain ⟨job, hjob⟩ := h.inv.lock j hj
  obtain ⟨o, ho⟩ := hcalm.engine job.call
  have hstep := Step.conn (i := j) (ConnStep.finish hjob ho) (S := S) rfl
  have hconn : ∀ c, Function.update S.conns j c i = S.conns i := fun c => by simp [hne.symm]
  refine ⟨_, _, hstep, ⟨h.inv.step hstep, ?_, fun k hk => ?_, ?_⟩, ?_⟩
  · simpa only [hconn] using h.alive
  · rcases eq_or_ne k j with rfl | hkj
    · simpa using (h.others k hk).finish (h.inv.conns k).1 hcalm hjob ho
    · simpa [hkj] using h.others k hk
  · simpa only [hconn] using h.sent_eq
  · simp only [System.rank, hconn, hj]
    simp

theorem alive_of_stage {c : Conn} {p : PendingFrame} (he : c.edge = .awaiting p)
    (hpos : 0 < c.task.stage) : Alive c := by
  refine ⟨by simp [he], by simp [he], fun hx => ?_, fun hx => ?_⟩ <;>
  · rw [hx] at hpos
    exact absurd hpos (by decide)

theorem Conn.stage_awaiting {c : Conn} {p : PendingFrame} (he : c.edge = .awaiting p)
    (hreply : c.down ++ c.outbuf = []) : c.stage = c.task.stage := by
  simp only [stage, he, hreply, if_true]

/-- A reply is on its way: first out of the worker's buffer, then over the wire. -/
theorem Conn.stage_replied {c : Conn} {p : PendingFrame} (he : c.edge = .awaiting p)
    (hreply : c.down ++ c.outbuf ≠ []) : c.stage = if c.outbuf = [] then 2 else 3 := by
  simp only [stage, he, if_neg hreply]

/-- A step of the task, while nothing is on the way back. -/
theorem Going.task {p : PendingFrame} {c : Conn} (h : Going W S₀ i S)
    (he : (S.conns i).edge = .awaiting p)
    (hreply : (S.conns i).down ++ (S.conns i).outbuf = []) (hs : ConnStep W .none (S.conns i) c)
    (hedge : c.edge = (S.conns i).edge)
    (hback : c.down ++ c.outbuf = (S.conns i).down ++ (S.conns i).outbuf)
    (hsent : c.sent = (S.conns i).sent) (hinbox : c.inbox = (S.conns i).inbox)
    (hpos : 0 < c.task.stage) (hlt : c.task.stage < (S.conns i).task.stage) :
    Lowers W S₀ i S := by
  rw [he] at hedge
  rw [hreply] at hback
  refine h.free hs (alive_of_stage hedge hpos) hsent hinbox ?_
  rwa [Conn.stage_awaiting hedge hback, Conn.stage_awaiting he hreply]

/-- In front of the reply: either its bytes move, or the task does, or the lock has to come
    free first. -/
theorem Going.awaiting {p : PendingFrame} (h : Going W S₀ i S) (hcalm : Calm W)
    (he : (S.conns i).edge = .awaiting p) : Lowers W S₀ i S := by
  obtain ⟨pending, -, hphase⟩ := (h.inv.conns i).1.phase
  simp only [Phase, he] at hphase
  obtain ⟨b, -, hp, hu, hv⟩ := hphase
  have ha := h.alive
  have hhdr := hcalm.header b p hp
  have hfits : p.jpeg.length ≤ Edge.maxFrameLength :=
    ((Edge.located_of_pending hp).2.1.jpeg_le).trans hcalm.jpeg
  generalize htask : (S.conns i).task = task at hv
  generalize hup : (S.conns i).up = up at hv
  generalize hreply : (S.conns i).down ++ (S.conns i).outbuf = reply at hv
  cases hv with
  | waiting ht hsum =>
    obtain rfl : task = .reading := ht.resolve_right fun hx => ha.exiting (htask.trans hx)
    have hd : decode Worker.maxFrameBytes (S.conns i).up =
        .frame (W.toText (headerOf p)) (encode p.jpeg) := by
      rw [hup]
      refine (decode_eq_frame_iff maxFrameBytes_lt).mpr ⟨?_, hhdr⟩
      simpa using hsum
    exact h.task he hreply (.readHeader htask hd) rfl rfl rfl rfl (by simp [Task.stage])
      (by simp [htask, Task.stage])
  | header hsum =>
    have hd : decode Worker.maxFrameBytes (S.conns i).up = .frame p.jpeg [] := by
      rw [hup]
      refine (decode_eq_frame_iff maxFrameBytes_lt).mpr ⟨?_, hfits⟩
      simpa using hsum
    exact h.task he hreply (.readPayload htask hd) rfl rfl rfl rfl (by simp [Task.stage])
      (by simp [htask, Task.stage])
  | routing =>
    have hroute : Worker.route W.py (W.toText (headerOf p)) p.jpeg = .infer (jobOf p) :=
      Bridge.route_forwarded (Edge.processBinary_pending _ hp) (W.loads_toText p)
    have hstep := ConnStep.route (W := W) htask
    rw [hroute] at hstep
    exact h.task he hreply hstep rfl rfl rfl rfl (by simp [Conn.routed, Task.stage])
      (by simp [Conn.routed, htask, Task.stage])
  | queued =>
    cases hlock : S.lock with
    | some j =>
      refine h.unlock hcalm hlock fun hj => ?_
      obtain ⟨job, hjob⟩ := h.inv.lock j hlock
      rw [hj, htask] at hjob
      exact absurd hjob (by simp)
    | none =>
      have hl : lockAfter S.lock i .acquire = some (some i) := by simp [lockAfter, hlock]
      refine h.locking (.acquire htask) hl (alive_of_stage he (by simp [Task.stage])) rfl rfl ?_
      have hstage :=
        Conn.stage_awaiting (c := { S.conns i with task := .running (jobOf p) }) he hreply
      rw [hstage, Conn.stage_awaiting he hreply, htask]
      simp [Task.stage]
  | running =>
    obtain ⟨o, ho⟩ := hcalm.engine (jobOf p).call
    obtain ⟨doc, -, hdoc, -⟩ := hcalm.replies b p o hp ho
    have hstep : ConnStep W .release (S.conns i) (((S.conns i).called (jobOf p) o).write W
        (Worker.send W.py p.header.frame_id (Worker.inferReply (jobOf p) o))) := .finish htask ho
    rw [Conn.write_doc hdoc (hcalm.goes_on (jobOf p) o ho)] at hstep
    refine h.locking hstep rfl ⟨?_, ?_, by simp, by simp⟩ rfl rfl ?_
    · simp [Conn.called, he]
    · simp [Conn.called, he]
    · rw [Conn.stage_awaiting he hreply, htask]
      simp [Conn.stage, Conn.called, he, Framing.encode, Framing.be32, Task.stage]
  | silent => exact absurd htask ha.exiting
  | @replied doc _ ht hdoc =>
    have hne : (S.conns i).down ++ (S.conns i).outbuf ≠ [] := by
      rw [hreply]
      simp [Framing.encode, Framing.be32]
    have hread : task = .reading := ht.resolve_right fun hx => ha.exiting (htask.trans hx)
    have hx : (S.conns i).task ≠ .exiting := by simp [htask, hread]
    have hd : (S.conns i).task ≠ .ended := by simp [htask, hread]
    by_cases hout : (S.conns i).outbuf = []
    · -- all of it has arrived
      rw [hout, List.append_nil] at hreply
      obtain ⟨o, ho, hsend⟩ := hdoc
      obtain ⟨doc', r, hdoc', hr⟩ := hcalm.replies b p o hp ((h.inv.conns i).2 _ ho)
      obtain rfl := Option.some.inj (hsend.symm.trans hdoc')
      have hdown : decode Edge.maxFrameLength (S.conns i).down = .frame (W.py.dumps doc) [] := by
        rw [hreply]
        refine (decode_eq_frame_iff maxFrameLength_lt).mpr ⟨by simp, ?_⟩
        exact Worker.send_length hsend
      refine h.free (.reply he hdown hr) ⟨by simp, by simp, hx, hd⟩ rfl rfl ?_
      rw [Conn.stage_replied he hne, if_pos hout]
      simp [Conn.stage]
    · have hstep : ConnStep W .none (S.conns i)
          { S.conns i with down := (S.conns i).down ++ (S.conns i).outbuf, outbuf := [] } :=
        .flushReply (by simp)
      refine h.free hstep ⟨by simp [he], by simp [he], hx, hd⟩ rfl rfl ?_
      rw [Conn.stage_replied he hne, if_neg hout]
      simp [Conn.stage, he, hout]
  | cut | dead => exact absurd htask ha.ended

/-- The frames of a request go out, the next bytes first. -/
theorem Going.sending {p : PendingFrame} {out : Bytes} {rest : List Bytes}
    (h : Going W S₀ i S) (hcalm : Calm W) (he : (S.conns i).edge = .sending p out rest) :
    Lowers W S₀ i S := by
  obtain ⟨pending, -, hphase⟩ := (h.inv.conns i).1.phase
  simp only [Phase, he] at hphase
  obtain ⟨b, -, hp, hu, -⟩ := hphase
  have ha := h.alive
  have alive' : ∀ pc, pc ≠ .closing → pc ≠ .closed → Alive { S.conns i with edge := pc } :=
    fun pc hc hd => ⟨hc, hd, ha.exiting, ha.ended⟩
  by_cases hout : out = []
  · subst hout
    cases rest with
    | nil =>
      refine h.free (.awaits he) (alive' _ (by simp) (by simp)) rfl rfl ?_
      have hle := Conn.stage_le (c := { S.conns i with edge := .awaiting p }) rfl
      simp only [Conn.stage, he, List.length_nil, if_true] at hle ⊢
      omega
    | cons d rest =>
      have hd : d.length ≤ Edge.maxFrameLength := by
        cases hu with
        | start => exact hcalm.header b p hp
        | header _ => exact ((Edge.located_of_pending hp).2.1.jpeg_le).trans hcalm.jpeg
      refine h.free (.encodes he hd) (alive' _ (by simp) (by simp)) rfl rfl ?_
      simp only [Conn.stage, he, List.length_cons, if_true]
      split <;> omega
  · have hstep : ConnStep W .none (S.conns i)
        { S.conns i with edge := .sending p [] rest, up := (S.conns i).up ++ out } :=
      .flush (by simpa using he)
    refine h.free hstep ⟨by simp, by simp, ha.exiting, ha.ended⟩ rfl rfl ?_
    simp only [Conn.stage, he, if_neg hout, if_true]
    omega

variable (W) in
/-- No message costs the connection. A message that does is answered by a Close, which is not
    an answer in the sense of this file. -/
def NoneFatal (sent : List Message) : Prop :=
  ∀ b ∈ sent.filterMap Message.binary?, ∀ fault, processBinary W.cfg b ≠ .fatalFraming fault

theorem Going.processing {b : Bytes} (h : Going W S₀ i S) (hfatal : NoneFatal W (S₀.conns i).sent)
    (he : (S.conns i).edge = .processing b) : Lowers W S₀ i S := by
  obtain ⟨hinv, -⟩ := h.inv.conns i
  obtain ⟨pending, hdialogue, hphase⟩ := hinv.phase
  simp only [Phase, he] at hphase
  obtain ⟨rfl, -⟩ := hphase
  obtain ⟨answered, hframes, -⟩ := hdialogue.forall₂
  have hmem : b ∈ (S₀.conns i).sent.filterMap Message.binary? := by
    rw [← h.sent_eq, hinv.in_order, hframes]
    simp
  have ha := h.alive
  have hstep := ConnStep.process (W := W) he
  cases ho : processBinary W.cfg b with
  | fatalFraming fault => exact absurd ho (hfatal b hmem fault)
  | perFrame frame_id fault =>
    rw [ho] at hstep
    refine h.free hstep ⟨?_, ?_, ha.exiting, ha.ended⟩ rfl rfl ?_ <;>
      simp [Conn.afterProcessing, Conn.stage, he]
  | pending p =>
    rw [ho] at hstep
    refine h.free hstep ⟨?_, ?_, ha.exiting, ha.ended⟩ rfl rfl ?_ <;>
      simp [Conn.afterProcessing, Conn.stage, he]

/-- At the top of the loop, with something to take up. -/
theorem Going.top (h : Going W S₀ i S) (he : (S.conns i).edge = .top)
    (hne : (S.conns i).inbox ≠ []) : Lowers W S₀ i S := by
  have ha := h.alive
  obtain ⟨m, rest, hin⟩ := List.exists_cons_of_ne_nil hne
  cases m with
  | other =>
    refine h.conn (.ignore he hin) rfl ⟨by simp [he], by simp [he], ha.exiting, ha.ended⟩ rfl ?_
    simp only [System.rank, hin, List.length_cons, Conn.stage, he]
    omega
  | binary b =>
    refine h.conn (.receive he hin) rfl ⟨by simp, by simp, ha.exiting, ha.ended⟩ rfl ?_
    simp only [System.rank, hin, List.length_cons, Conn.stage, he]
    omega

/-- All that has arrived is answered, and the handler waits for more. -/
structure Settled (c : Conn) : Prop where
  edge : c.edge = .top
  inbox : c.inbox = []

/-- **Short of the goal there is a step towards it.** By the place of the handler: each has
    its lemma above. -/
theorem Going.lowers (h : Going W S₀ i S) (hcalm : Calm W)
    (hfatal : NoneFatal W (S₀.conns i).sent) (hgoal : ¬ Settled (S.conns i)) : Lowers W S₀ i S := by
  have ha := h.alive
  have alive' : ∀ pc log, pc ≠ .closing → pc ≠ .closed →
      Alive { S.conns i with edge := pc, log := log } :=
    fun pc log hc hd => ⟨hc, hd, ha.exiting, ha.ended⟩
  cases he : (S.conns i).edge with
  | connecting =>
    obtain ⟨pending, -, hphase⟩ := (h.inv.conns i).1.phase
    simp only [Phase, he] at hphase
    have ht := hphase.2.reading ha.exiting ha.ended
    refine h.free (.connect he ht) (alive' _ _ (by simp) (by simp)) rfl rfl ?_
    simp [Conn.stage, he]
  | top => exact h.top he fun hin => hgoal ⟨he, hin⟩
  | processing b => exact h.processing hfatal he
  | rejecting frame_id fault =>
    refine h.free (.reject he) (alive' _ _ (by simp) (by simp)) rfl rfl ?_
    simp [Conn.stage, he]
  | sending p out rest => exact h.sending hcalm he
  | awaiting p => exact h.awaiting hcalm he
  | replying r =>
    refine h.free (.answer he) (alive' _ _ (by simp) (by simp)) rfl rfl ?_
    simp [Conn.stage, he]
  | closing => exact absurd he ha.closing
  | closed => exact absurd he ha.closed

/-- By induction on the rank. -/
theorem Going.settles (h : Going W S₀ i S) (hcalm : Calm W)
    (hfatal : NoneFatal W (S₀.conns i).sent) :
    ∃ as S', Run (Step W) S as S' ∧ Going W S₀ i S' ∧ Settled (S'.conns i) := by
  have hlower : ∀ S, Going W S₀ i S → ∃ as S', (∀ a ∈ as, True) ∧ Run (Step W) S as S' ∧
      ((Going W S₀ i S' ∧ Settled (S'.conns i)) ∨
        Going W S₀ i S' ∧ S'.rank i < S.rank i) := by
    intro S hS
    by_cases hgoal : Settled (S.conns i)
    · exact ⟨[], S, by simp, .nil, .inl ⟨hS, hgoal⟩⟩
    · obtain ⟨a, S', hstep, hgoing, hlt⟩ := hS.lowers hcalm hfatal hgoal
      exact ⟨[a], S', by simp, .cons hstep .nil, .inr ⟨hgoing, hlt⟩⟩
  obtain ⟨as, S', -, hrun, hgoing, hsettled⟩ := Transition.exists_run_of_rank hlower h
  exact ⟨as, S', hrun, hgoing, hsettled⟩

end Progress

/-- Libraries that write `header` as `text` and `doc` as `reply`, and read both back. -/
theorem exists_world (cfg : Edge.Config)
    (engine : Worker.EngineCall → Worker.EngineOutcome → Prop) (header doc : Json Str)
    {text reply : Bytes} (htext : text.head? = some 0x7B) (hreply : reply ≠ []) :
    ∃ W : World, W.cfg = cfg ∧ W.engine = engine ∧ W.toText header = text ∧
      W.py.dumps doc = reply ∧ W.fromSlice reply = some doc := by
  classical
  have hchar : Countable Char := (Function.LeftInverse.injective Char.ofNat_toNat).countable
  have hmode : Countable Edge.GenerationMode := Edge.GenerationMode.wireName_injective.countable
  -- there are no more headers than texts, so that each of the others can have one of its own
  let headers (x : Str × Str × Str × Edge.GenerationMode × Nat) : Json Str :=
    Edge.frameHeader x.1 x.2.1 x.2.2.1 x.2.2.2.1 x.2.2.2.2
  obtain ⟨number, hnumber⟩ := (Set.countable_range headers).to_subtype.exists_injective_nat
  have hfresh : ∀ n, List.replicate n 0 ≠ text := by
    intro n hn
    rw [← hn] at htext
    cases n with
    | zero => exact absurd htext (by simp)
    | succ n => exact absurd htext (by simp [List.replicate_succ])
  let toText (d : Json Str) : Bytes :=
    if d = header then text
    else if h : d ∈ Set.range headers then List.replicate (number ⟨d, h⟩) 0 else []
  let loads (b : Bytes) : Except Worker.LoadError (Json Str) :=
    if b = text then .ok header
    else if h : ∃ d : Set.range headers, List.replicate (number d) 0 = b then .ok h.choose
    else .error (.unicode [])
  have hloads : ∀ p, loads (toText (headerOf p)) = .ok (headerOf p) := by
    intro p
    by_cases hp : headerOf p = header
    · simp only [loads, toText, hp, if_true]
    have hmem : headerOf p ∈ Set.range headers :=
      ⟨(p.header.frame_id, p.prompt, p.prompt_task, p.header.generation_mode,
        p.header.jpeg_len), rfl⟩
    have hwrite : toText (headerOf p) = List.replicate (number ⟨headerOf p, hmem⟩) 0 := by
      simp only [toText, if_neg hp, dif_pos hmem]
    have hex : ∃ d : Set.range headers, List.replicate (number d) 0 = toText (headerOf p) :=
      ⟨_, hwrite.symm⟩
    have hlength := congrArg List.length (hex.choose_spec.trans hwrite)
    simp only [List.length_replicate] at hlength
    have hother : toText (headerOf p) ≠ text := hwrite ▸ hfresh _
    simp only [loads, if_neg hother, dif_pos hex, hnumber hlength]
  let dumps (d : Json Str) : Bytes := if d = doc then reply else []
  let fromSlice (b : Bytes) : Option (Json Str) := if b = reply then some doc else none
  have hread : ∀ d, fromSlice (dumps d) = none ∨ fromSlice (dumps d) = some d := by
    intro d
    by_cases hd : d = doc
    · exact .inr (by simp only [fromSlice, dumps, hd, if_true])
    · exact .inl (by simp only [fromSlice, dumps, if_neg hd, if_neg hreply.symm])
  let py : Worker.Python :=
    { loads := loads, dumps := dumps, repr := fun _ => [], inferenceTimeout := "600.0".toList }
  exact ⟨⟨cfg, py, toText, fromSlice, engine, fun _ => True, hloads, hread⟩, rfl, rfl,
    if_pos rfl, if_pos rfl, if_pos rfl⟩

/-- Where only one Frame is ever forwarded and the engine always objects to it, nothing blocks. -/
theorem exists_calm_world {cfg : Edge.Config} {p₀ : PendingFrame}
    (honly : ∀ b p, processBinary cfg b = .pending p → p = p₀)
    (hjpeg : cfg.maxJpegBytes ≤ Edge.maxFrameLength) (e : Str) (text reply : Bytes)
    (htext : text.head? = some 0x7B) (hfits : text.length ≤ Edge.maxFrameLength)
    (hreply : reply ≠ []) (hfits' : reply.length ≤ Worker.maxFrameBytes) :
    ∃ W : World, W.cfg = cfg ∧ Calm W ∧ ∀ call, W.engine call (.error (.valueError e)) := by
  let doc := Worker.frameError p₀.header.frame_id "invalid_image".toList (.str e)
  obtain ⟨W, rfl, hengine, hwrite, hdumps, hread⟩ :=
    exists_world cfg (fun _ o => o = .error (.valueError e)) (headerOf p₀) doc htext hreply
  have hreplies : ∀ (job : Worker.Job) o, W.engine job.call o →
      Worker.inferReply job o =
        .ok (Worker.frameError job.frame_id "invalid_image".toList (.str e)) := by
    intro job o ho
    rw [hengine] at ho
    subst ho
    rfl
  refine ⟨W, rfl, ⟨fun call => ⟨_, by rw [hengine]⟩, fun job o ho => ?_, fun b p o hp ho => ?_,
    fun b p hp => ?_, hjpeg⟩, fun call => by rw [hengine]⟩
  · rw [hreplies job o ho, Worker.send]
    split <;> rfl
  · obtain rfl := honly b p hp
    rw [hreplies (jobOf p) o ho]
    have hsend : (W.py.dumps doc).length ≤ Worker.maxFrameBytes := hdumps ▸ hfits'
    have hforwarded := Bridge.forwarded_frameError p.header.frame_id e .invalidImage
    exact ⟨doc, _, congrArg Worker.Sent.doc (if_pos hsend),
      hforwarded.infer (hdumps ▸ hread : W.fromSlice (W.py.dumps doc) = some doc)⟩
  · obtain rfl := honly b p hp
    rwa [hwrite]

/-- Readers that know one header and one image let one Frame through. -/
theorem pending_unique {cfg : Edge.Config} {header : Edge.InferHeader}
    {jpeg : Bytes} {prompt task : Str}
    (hread : ∀ e h, cfg.readHeader e = .ok h → h = header)
    (hdims : ∀ j w h, cfg.readDimensions j = .ok w h → j = jpeg)
    (hcompile : Edge.compile Edge.templates cfg.nfc header.request = .ok (prompt, task))
    {b : Bytes} {p : PendingFrame} (hp : processBinary cfg b = .pending p) :
    p = ⟨header, jpeg, prompt, task⟩ := by
  obtain ⟨hl, haccepts, hc⟩ := Edge.located_of_pending hp
  obtain ⟨e, -, -, he, -⟩ := Edge.exists_encode hl
  obtain ⟨w, h, hj, -⟩ := haccepts.dimensions
  obtain ⟨header', jpeg', prompt', task'⟩ := p
  obtain rfl := hread e _ he
  obtain rfl := hdims _ w h hj
  obtain ⟨rfl, rfl⟩ := Prod.mk.inj (Except.ok.inj (hcompile.symm.trans hc))
  rfl

theorem sampleConfig_sees (frame_id : Str) {jpeg : Bytes} {w h : Nat}
    (hd : (Edge.sampleConfig frame_id).readDimensions jpeg = .ok w h) :
    jpeg = Edge.sampleJpeg := by
  simp only [Edge.sampleConfig] at hd
  split at hd
  · assumption
  · exact absurd hd (by simp)

/-- The only connection there is makes a step. -/
theorem step_alone {c c' : Conn} (h : ConnStep W .none c c') :
    Step W ⟨fun _ : Unit => c, none⟩ (some ()) ⟨fun _ => c', none⟩ := by
  have hstep := Step.conn (S := ⟨fun _ : Unit => c, none⟩) (i := ()) h rfl
  rwa [Function.update_eq_const_of_subsingleton] at hstep

/-- One message is on its way, and nothing else has happened. -/
def Conn.sentFirst (b : Bytes) : Conn :=
  { Conn.start with inbox := [.binary b], sent := [.binary b] }

theorem run_sentFirst (b : Bytes) :
    Run (Step W) System.start [some ()] ⟨fun _ => Conn.sentFirst b, none⟩ :=
  .cons (step_alone (.sends .start (.binary b))) .nil

theorem alive_sentFirst (b : Bytes) : Alive (Conn.sentFirst b) := by
  constructor <;> simp [Conn.sentFirst, Conn.start]

/-- What the worker replies to an image that cannot be decoded. -/
def sampleReplyText (frame_id : Str) : Bytes :=
  Edge.utf8 ("\x7b\"ok\": false, \"type\": \"error\", \"frame_id\": \"".toList ++ frame_id ++
    "\", \"code\": \"invalid_image\", \"message\": \"no image\"\x7d".toList)

end LocateAnything.Stream
