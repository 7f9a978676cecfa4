import LocateAnything.Lib.Transition
import LocateAnything.Stream.Link

/-!
# Every reply answers its Frame

Nobody on the edge compares the id of a reply with the id of the Frame it is taken for. The
handler writes a request, and what it reads next from the socket it sends to the client. That
replies and Frames correspond rests on the two byte streams staying in step, over all runs of
all connections: `replies_correlate`.

The streams are bytes, delivered in pieces that heed no frame, and the worker's task is a
process of its own. So there is no state in which "the request has arrived" that either side
could look at. The invariant is the state of one exchange (`Serves`): how much of the request
has been written, how much of it the worker's task has taken, and what of the reply is on its
way. What the edge has still to write, what is under way and what the task has taken add up to
the two frames of the request at any time, and that is stated as an equation on bytes, which
every step of either side preserves. Outside an exchange both streams are empty (`Quiet`). It
is this emptiness that makes the next reply the next Frame's.

Where an exchange fails, the connection to the worker is not used again: the handler closes,
and a Close is all that the client still gets. Nothing has to be said of the streams behind
that.

Of the other connections the argument needs nothing. They share the lock, and the lock decides
when a call is made, not what comes of it.
-/

set_option autoImplicit false

namespace LocateAnything.Stream

open Framing (Bytes Decoded encode decode stream encode_append_inj decode_eq_frame_iff decode_nil)
open Edge (PendingFrame Response processBinary)
open Worker (EngineCall EngineOutcome Job)
open Bridge (headerOf jobOf)

/-- What the engine has come to for a connection, in the order of the calls. It is a history:
    nothing reads it but the statements. -/
abbrev Calls := List (EngineCall × EngineOutcome)

variable (W : World)

/-! ## What is to be shown -/

/-- The worker writes `doc` for the Frame: the engine, called with the prompt and the JPEG of this
    Frame, came to an outcome that is reported by `doc`. -/
def Replies (calls : Calls) (p : PendingFrame) (doc : Json Str) : Prop :=
  ∃ o, (⟨p.jpeg, p.prompt, p.header.generation_mode.wireName, .str p.prompt_task⟩, o) ∈ calls ∧
    (Worker.send W.py p.header.frame_id (Worker.inferReply (jobOf p) o)).doc = some doc

/-- **`r` answers the Binary message `b`**: it carries the id of `b`, and either reports why
    `b` was rejected or is the worker's reply to `b`. The id alone would not do, since two
    Frames may share one. -/
structure Answers (calls : Calls) (b : Bytes) (r : Response) : Prop where
  frame_id : Edge.frameIdOf W.cfg b = some r.frameId
  origin : (∃ frame_id fault, processBinary W.cfg b = .perFrame frame_id fault ∧
      r = .error ⟨frame_id, fault.code, fault.message⟩) ∨
    ∃ p doc, processBinary W.cfg b = .pending p ∧ Replies W calls p doc ∧
      Edge.infer W.fromSlice (.reply (W.py.dumps doc)) = .ok r

/-- What has happened on a WebSocket: Binary messages and Texts in turns, every Text an answer to
    the message in front of it. The last message may be unanswered. -/
inductive Dialogue (calls : Calls) : List WsEvent → Option Bytes → Prop where
  | start : Dialogue calls [] none
  | frame {log : List WsEvent} (b : Bytes) : Dialogue calls log none →
    Dialogue calls (log ++ [.frame b]) (some b)
  | text {log : List WsEvent} {b : Bytes} {r : Response} : Dialogue calls log (some b) →
    Answers W calls b r → Dialogue calls (log ++ [.text r]) none

/-- **What a client may rely on**: its Binary messages are taken up in order, each answered
    before the next; and where the handler is back at the top of its loop, every message has
    its answer and nothing of the exchange is left on the socket to the worker. -/
structure Correlated (c : Conn) : Prop where
  in_order : c.sent.filterMap Message.binary? =
    c.log.filterMap WsEvent.frame? ++ c.inbox.filterMap Message.binary?
  dialogue : ∃ pending, Dialogue W c.calls c.log pending ∧ (c.edge = .top → pending = none)
  clean : c.edge = .top → c.up = [] ∧ c.down = [] ∧ c.outbuf = []

/-! ## One exchange -/

/-- How far `infer` has got with its two frames. That a frame has been given to the codec says
    that it fits, which the length of the stream will not tell the worker's side. -/
inductive Unsent (p : PendingFrame) : Bytes → List Bytes → Prop where
  | start : Unsent p [] [W.toText (headerOf p), p.jpeg]
  | header {out : Bytes} : (W.toText (headerOf p)).length ≤ Edge.maxFrameLength →
    Unsent p out [p.jpeg]
  | payload {out : Bytes} : (W.toText (headerOf p)).length ≤ Edge.maxFrameLength →
    p.jpeg.length ≤ Edge.maxFrameLength → Unsent p out []

/-- The worker's side of an exchange: `todo` is still to be written by the edge, `up` is on
    the way to the worker, `reply` on the way back. One constructor for each place of the
    task, and two for a task that has ended under way; in those the exchange cannot be
    completed, and need not be. -/
inductive Serves (calls : Calls) (p : PendingFrame) :
    (todo up reply : Bytes) → Task → Prop where
  | waiting {todo up : Bytes} {task : Task} : task = .reading ∨ task = .exiting →
    up ++ todo = encode (W.toText (headerOf p)) ++ encode p.jpeg → Serves calls p todo up [] task
  | header {todo up : Bytes} : up ++ todo = encode p.jpeg →
    Serves calls p todo up [] (.payload (W.toText (headerOf p)))
  | routing : Serves calls p [] [] [] (.routing (W.toText (headerOf p)) p.jpeg)
  | queued : Serves calls p [] [] [] (.queued (jobOf p))
  | running : Serves calls p [] [] [] (.running (jobOf p))
  | silent : Serves calls p [] [] [] .exiting
  | replied {doc : Json Str} {task : Task} : task = .reading ∨ task = .exiting →
    Replies W calls p doc → Serves calls p [] [] (encode (W.py.dumps doc)) task
  /-- The task has ended behind a reply; the end of it may be lost. -/
  | cut {doc : Json Str} {reply : Bytes} : Replies W calls p doc →
    reply <+: encode (W.py.dumps doc) → Serves calls p [] [] reply .ended
  /-- The task has ended without a reply. -/
  | dead {todo up : Bytes} : Serves calls p todo up [] .ended

/-- Nothing is on its way. The task may be at its next read, or about to end, or gone. -/
structure Quiet (up reply : Bytes) (task : Task) : Prop where
  up : up = []
  reply : reply = []
  task : task = .reading ∨ task = .exiting ∨ task = .ended

/-- What is known in each state of the handler; `pending` is the message not answered yet.
    Once it closes, nothing is claimed any more. -/
def Phase (c : Conn) (pending : Option Bytes) : Prop :=
  match c.edge with
  | .connecting | .top => pending = none ∧ Quiet c.up (c.down ++ c.outbuf) c.task
  | .processing b => pending = some b ∧ Quiet c.up (c.down ++ c.outbuf) c.task
  | .rejecting frame_id fault =>
    ∃ b, pending = some b ∧ processBinary W.cfg b = .perFrame frame_id fault ∧
      Quiet c.up (c.down ++ c.outbuf) c.task
  | .sending p out rest =>
    ∃ b, pending = some b ∧ processBinary W.cfg b = .pending p ∧ Unsent W p out rest ∧
      Serves W c.calls p (out ++ stream rest) c.up (c.down ++ c.outbuf) c.task
  | .awaiting p =>
    ∃ b, pending = some b ∧ processBinary W.cfg b = .pending p ∧ Unsent W p [] [] ∧
      Serves W c.calls p [] c.up (c.down ++ c.outbuf) c.task
  | .replying r =>
    ∃ b, pending = some b ∧ Answers W c.calls b r ∧ Quiet c.up (c.down ++ c.outbuf) c.task
  | .closing | .closed => True

/-- The invariant of one connection: what has been taken up in order, and where the exchange
    stands. -/
structure Inv (c : Conn) : Prop where
  in_order : c.sent.filterMap Message.binary? =
    c.log.filterMap WsEvent.frame? ++ c.inbox.filterMap Message.binary?
  phase : ∃ pending, Dialogue W c.calls c.log pending ∧ Phase W c pending

variable {W}

theorem Inv.correlated {c : Conn} (h : Inv W c) : Correlated W c := by
  obtain ⟨pending, hd, hp⟩ := h.phase
  refine ⟨h.in_order, ⟨pending, hd, fun ht => ?_⟩, fun ht => ?_⟩
  · simp only [Phase, ht] at hp
    exact hp.1
  · simp only [Phase, ht] at hp
    exact ⟨hp.2.up, List.append_eq_nil_iff.mp hp.2.reply⟩

theorem Inv.start : Inv W .start := ⟨rfl, none, .start, rfl, rfl, rfl, .inl rfl⟩

/-! ## More calls -/

theorem Replies.mono {calls calls' : Calls} (hsub : calls ⊆ calls') {p : PendingFrame}
    {doc : Json Str} (h : Replies W calls p doc) : Replies W calls' p doc := by
  obtain ⟨o, ho, hdoc⟩ := h
  exact ⟨o, hsub ho, hdoc⟩

theorem Answers.mono {calls calls' : Calls} (hsub : calls ⊆ calls') {b : Bytes} {r : Response}
    (h : Answers W calls b r) : Answers W calls' b r := by
  refine ⟨h.frame_id, ?_⟩
  rcases h.origin with hrejected | ⟨p, doc, hp, hdoc, hr⟩
  · exact .inl hrejected
  · exact .inr ⟨p, doc, hp, hdoc.mono hsub, hr⟩

/-- Further calls take no answer back. -/
theorem Dialogue.mono {calls calls' : Calls} (hsub : calls ⊆ calls') {log : List WsEvent}
    {pending : Option Bytes} (h : Dialogue W calls log pending) :
    Dialogue W calls' log pending := by
  induction h with
  | start => exact .start
  | frame b _ ih => exact .frame b ih
  | text _ ha ih => exact .text ih (ha.mono hsub)

/-! ## The exchange, step by step -/

section Exchange

variable {calls : Calls} {p : PendingFrame} {todo up reply : Bytes} {task : Task}

theorem maxFrameLength_lt : Edge.maxFrameLength < 2 ^ 32 := by decide

theorem maxFrameBytes_lt : Worker.maxFrameBytes < 2 ^ 32 := by decide

/-- Outside an exchange the task reads nothing, so it cannot act on its own. -/
theorem Quiet.decode_up {max : Nat} {d rest : Bytes} (h : Quiet up reply task)
    (hd : decode max up = .frame d rest) : False := by
  rw [h.up, decode_nil] at hd
  exact absurd hd (by simp)

theorem Quiet.ended {reply' : Bytes} (h : Quiet up reply task) (hr : reply' <+: reply) :
    Quiet up reply' .ended :=
  ⟨h.up, List.prefix_nil.mp (h.reply ▸ hr), .inr (.inr rfl)⟩

/-- A header that does not fit is never written in part: until the codec has it, all is still
    to do. -/
theorem Unsent.header_length {out : Bytes} {rest : List Bytes} (h : Unsent W p out rest) :
    (W.toText (headerOf p)).length ≤ Edge.maxFrameLength ∨
      out ++ stream rest = encode (W.toText (headerOf p)) ++ encode p.jpeg := by
  cases h with
  | start => exact .inr (by simp)
  | header hh => exact .inl hh
  | payload hh _ => exact .inl hh

theorem Unsent.payload_length {out : Bytes} {rest : List Bytes} (h : Unsent W p out rest) :
    p.jpeg.length ≤ Edge.maxFrameLength ∨
      (encode p.jpeg).length ≤ (out ++ stream rest).length := by
  cases h with
  | start => exact .inr (by simp)
  | header _ => exact .inr (by simp)
  | payload _ hj => exact .inl hj

/-- Bytes that the edge writes go from what is to do to what is under way. -/
theorem Serves.flush {now later : Bytes} (h : Serves W calls p todo up reply task)
    (ht : todo = now ++ later) : Serves W calls p later (up ++ now) reply task := by
  cases h with
  | waiting htask hup => exact .waiting htask (by rw [← hup, ht, List.append_assoc])
  | header hup => exact .header (by rw [← hup, ht, List.append_assoc])
  | dead => exact .dead
  | routing | queued | running | silent | replied htask hdoc | cut hdoc hreply =>
    obtain ⟨rfl, rfl⟩ := List.append_eq_nil_iff.mp ht.symm
    first
    | exact .routing
    | exact .queued
    | exact .running
    | exact .silent
    | exact .replied htask hdoc
    | exact .cut hdoc hreply

/-- The task has got the header, and it is the one of the Frame. -/
theorem Serves.readHeader {out d up' : Bytes} {rest : List Bytes}
    (h : Serves W calls p todo up reply .reading) (hu : Unsent W p out rest)
    (ht : todo = out ++ stream rest) (hd : decode Worker.maxFrameBytes up = .frame d up') :
    Serves W calls p todo up' reply (.payload d) := by
  obtain ⟨rfl, hlen⟩ := (decode_eq_frame_iff maxFrameBytes_lt).mp hd
  cases h with
  | waiting _ hup =>
    have hh : (W.toText (headerOf p)).length ≤ Edge.maxFrameLength := by
      refine hu.header_length.resolve_right fun hall => ?_
      have := congrArg List.length (ht.trans hall ▸ hup)
      simp only [List.length_append, Framing.encode_length] at this
      omega
    rw [List.append_assoc] at hup
    obtain ⟨rfl, hrest⟩ := encode_append_inj (hlen.trans_lt maxFrameBytes_lt)
      (hh.trans_lt maxFrameLength_lt) hup
    exact .header hrest

/-- The task has got the payload, and it is the JPEG of the Frame. -/
theorem Serves.readPayload {out header d up' : Bytes} {rest : List Bytes}
    (h : Serves W calls p todo up reply (.payload header)) (hu : Unsent W p out rest)
    (ht : todo = out ++ stream rest) (hd : decode Worker.maxFrameBytes up = .frame d up') :
    Serves W calls p todo up' reply (.routing header d) := by
  obtain ⟨rfl, hlen⟩ := (decode_eq_frame_iff maxFrameBytes_lt).mp hd
  cases h with
  | waiting htask _ => exact absurd htask (by simp)
  | header hup =>
    -- a JPEG that is too long for a frame has not been sent whole
    have hj : p.jpeg.length ≤ Edge.maxFrameLength := by
      refine hu.payload_length.resolve_right fun hall => ?_
      have := congrArg List.length hup
      rw [← ht] at hall
      simp only [List.length_append, Framing.encode_length] at this hall
      omega
    rw [List.append_assoc, ← List.append_nil (encode p.jpeg)] at hup
    obtain ⟨rfl, hrest⟩ := encode_append_inj (hlen.trans_lt maxFrameBytes_lt)
      (hj.trans_lt maxFrameLength_lt) hup
    obtain ⟨rfl, rfl⟩ := List.append_eq_nil_iff.mp hrest
    exact .routing

/-- The worker makes of the two frames the job the Frame is: the header is read back as it was
    written. -/
theorem Serves.route {b header payload : Bytes}
    (h : Serves W calls p todo up reply (.routing header payload))
    (hp : processBinary W.cfg b = .pending p) :
    Worker.route W.py header payload = .infer (jobOf p) ∧
      Serves W calls p todo up reply (.queued (jobOf p)) := by
  cases h with
  | waiting htask _ | replied htask _ => exact absurd htask (by simp)
  | routing =>
    exact ⟨Bridge.route_forwarded (Edge.processBinary_pending _ hp) (W.loads_toText p), .queued⟩

/-- The header of a Frame is no control query. -/
theorem Serves.not_controlling {frame_id : Str} :
    ¬ Serves W calls p todo up reply (.controlling frame_id) := by
  intro h
  cases h with
  | waiting htask _ | replied htask _ => exact absurd htask (by simp)

theorem Serves.acquire {job : Job} (h : Serves W calls p todo up reply (.queued job)) :
    Serves W calls p todo up reply (.running job) := by
  cases h with
  | waiting htask _ | replied htask _ => exact absurd htask (by simp)
  | queued => exact .running

theorem Serves.running_inv {job : Job} (h : Serves W calls p todo up reply (.running job)) :
    job = jobOf p ∧ todo = [] ∧ up = [] ∧ reply = [] := by
  cases h with
  | waiting htask _ | replied htask _ => exact absurd htask (by simp)
  | running => exact ⟨rfl, rfl, rfl, rfl⟩

/-- The task ends; what it had not written may be lost. -/
theorem Serves.ended {reply' : Bytes} (h : Serves W calls p todo up reply task)
    (hr : reply' <+: reply) : Serves W calls p todo up reply' .ended := by
  cases h with
  | replied _ hdoc => exact .cut hdoc hr
  | cut hdoc hreply => exact .cut hdoc (hr.trans hreply)
  | waiting _ _ | header _ | routing | queued | running | silent | dead =>
    rw [List.prefix_nil.mp hr]
    exact .dead

/-- What has arrived in front of the handler is the whole reply, and nothing else. -/
theorem Serves.replied_of_frame {d rest : Bytes}
    (h : Serves W calls p [] up (encode d ++ rest) task) (hd : d.length ≤ Edge.maxFrameLength) :
    ∃ doc, Replies W calls p doc ∧ d = W.py.dumps doc ∧ Quiet up rest task := by
  have hne : encode d ++ rest ≠ [] := by simp [Framing.encode, Framing.be32]
  have hcut : ∀ doc, Replies W calls p doc → encode d ++ rest <+: encode (W.py.dumps doc) →
      d = W.py.dumps doc ∧ rest = [] := by
    rintro doc ⟨o, -, hdoc⟩ ⟨more, hmore⟩
    rw [List.append_assoc, ← List.append_nil (encode (W.py.dumps doc))] at hmore
    obtain ⟨hd', hrest⟩ := encode_append_inj (hd.trans_lt maxFrameLength_lt)
      ((Worker.send_length hdoc).trans_lt maxFrameBytes_lt) hmore
    exact ⟨hd', (List.append_eq_nil_iff.mp hrest).1⟩
  -- a reply is on its way only where the task has written one
  generalize hr : encode d ++ rest = r at h hne hcut
  cases h with
  | replied htask hdoc =>
    obtain ⟨hd', rfl⟩ := hcut _ hdoc (List.prefix_refl _)
    exact ⟨_, hdoc, hd', rfl, rfl, htask.elim .inl fun h => .inr (.inl h)⟩
  | cut hdoc hreply =>
    obtain ⟨hd', rfl⟩ := hcut _ hdoc hreply
    exact ⟨_, hdoc, hd', rfl, rfl, .inr (.inr rfl)⟩
  | waiting _ _ | header _ | routing | queued | running | silent | dead => exact absurd rfl hne

end Exchange

/-! ## The worker's steps -/

variable (W) in
/-- A step of the worker keeps an exchange an exchange, and the silence outside one. It leaves
    the handler and the client's side alone, which is why these steps can be dealt with by
    themselves. -/
structure WorkerStep (c c' : Conn) : Prop where
  edge : c'.edge = c.edge
  inbox : c'.inbox = c.inbox
  sent : c'.sent = c.sent
  log : c'.log = c.log
  calls : c.calls ⊆ c'.calls
  quiet : Quiet c.up (c.down ++ c.outbuf) c.task → Quiet c'.up (c'.down ++ c'.outbuf) c'.task
  serves : ∀ {p out rest b}, processBinary W.cfg b = .pending p → Unsent W p out rest →
    Serves W c.calls p (out ++ stream rest) c.up (c.down ++ c.outbuf) c.task →
    Serves W c'.calls p (out ++ stream rest) c'.up (c'.down ++ c'.outbuf) c'.task

/-- Whatever the handler is doing, what it knows survives the worker's steps. -/
theorem Phase.worker {c c' : Conn} {pending : Option Bytes} (hs : WorkerStep W c c')
    (h : Phase W c pending) : Phase W c' pending := by
  unfold Phase at h ⊢
  rw [hs.edge]
  cases he : c.edge with
  | connecting | top | processing b =>
    simp only [he] at h ⊢
    exact ⟨h.1, hs.quiet h.2⟩
  | rejecting frame_id fault =>
    simp only [he] at h ⊢
    obtain ⟨b, hb, hp, hq⟩ := h
    exact ⟨b, hb, hp, hs.quiet hq⟩
  | sending p out rest =>
    simp only [he] at h ⊢
    obtain ⟨b, hb, hp, hu, hv⟩ := h
    exact ⟨b, hb, hp, hu, hs.serves hp hu hv⟩
  | awaiting p =>
    simp only [he] at h ⊢
    obtain ⟨b, hb, hp, hu, hv⟩ := h
    exact ⟨b, hb, hp, hu, hs.serves hp hu hv⟩
  | replying r =>
    simp only [he] at h ⊢
    obtain ⟨b, hb, ha, hq⟩ := h
    exact ⟨b, hb, ha.mono hs.calls, hs.quiet hq⟩
  | closing | closed => trivial

theorem Inv.worker {c c' : Conn} (h : Inv W c) (hs : WorkerStep W c c') : Inv W c' := by
  obtain ⟨pending, hd, hp⟩ := h.phase
  refine ⟨?_, pending, ?_, hp.worker hs⟩
  · rw [hs.sent, hs.log, hs.inbox]; exact h.in_order
  · rw [hs.log]; exact hd.mono hs.calls

section Worker

variable {c : Conn}

theorem WorkerStep.readHeader {d rest : Bytes} (ht : c.task = .reading)
    (hd : decode Worker.maxFrameBytes c.up = .frame d rest) :
    WorkerStep W c { c with task := .payload d, up := rest } where
  edge := rfl
  inbox := rfl
  sent := rfl
  log := rfl
  calls := List.Subset.refl _
  quiet h := (h.decode_up hd).elim
  serves _ hu h := Serves.readHeader (ht ▸ h) hu rfl hd

theorem WorkerStep.readPayload {header d rest : Bytes} (ht : c.task = .payload header)
    (hd : decode Worker.maxFrameBytes c.up = .frame d rest) :
    WorkerStep W c { c with task := .routing header d, up := rest } where
  edge := rfl
  inbox := rfl
  sent := rfl
  log := rfl
  calls := List.Subset.refl _
  quiet h := (h.decode_up hd).elim
  serves _ hu h := Serves.readPayload (ht ▸ h) hu rfl hd

theorem WorkerStep.acquire {job : Job} (ht : c.task = .queued job) :
    WorkerStep W c { c with task := .running job } where
  edge := rfl
  inbox := rfl
  sent := rfl
  log := rfl
  calls := List.Subset.refl _
  quiet h := absurd h.task (by simp [ht])
  serves _ _ h := Serves.acquire (ht ▸ h)

theorem WorkerStep.flushReply {now later : Bytes} (ho : c.outbuf = now ++ later) :
    WorkerStep W c { c with down := c.down ++ now, outbuf := later } where
  edge := rfl
  inbox := rfl
  sent := rfl
  log := rfl
  calls := List.Subset.refl _
  quiet h := by simpa only [ho, List.append_assoc] using h
  serves _ _ h := by simpa only [ho, List.append_assoc] using h

theorem WorkerStep.ended {outbuf : Bytes} (ho : outbuf <+: c.outbuf) :
    WorkerStep W c { c with task := .ended, outbuf := outbuf } where
  edge := rfl
  inbox := rfl
  sent := rfl
  log := rfl
  calls := List.Subset.refl _
  quiet h := h.ended ((List.prefix_append_right_inj c.down).mpr ho)
  serves _ _ h := h.ended ((List.prefix_append_right_inj c.down).mpr ho)

theorem write_frame (c : Conn) (s : Worker.Sent) :
    (c.write W s).edge = c.edge ∧ (c.write W s).inbox = c.inbox ∧ (c.write W s).sent = c.sent ∧
      (c.write W s).log = c.log ∧ (c.write W s).calls = c.calls := by
  unfold Conn.write
  split <;> exact ⟨rfl, rfl, rfl, rfl, rfl⟩

theorem routed_frame (c : Conn) (r : Worker.Routed) :
    (c.routed W r).edge = c.edge ∧ (c.routed W r).inbox = c.inbox ∧
      (c.routed W r).sent = c.sent ∧ (c.routed W r).log = c.log ∧
      (c.routed W r).calls = c.calls := by
  cases r with
  | unusable doc | refused frame_id doc => exact write_frame c _
  | capabilities frame_id | info frame_id | infer job => exact ⟨rfl, rfl, rfl, rfl, rfl⟩

theorem WorkerStep.route {header payload : Bytes} (ht : c.task = .routing header payload) :
    WorkerStep W c (c.routed W (Worker.route W.py header payload)) := by
  obtain ⟨hedge, hinbox, hsent, hlog, hcalls⟩ := routed_frame (W := W) c
    (Worker.route W.py header payload)
  refine ⟨hedge, hinbox, hsent, hlog, hcalls ▸ List.Subset.refl _,
    fun h => absurd h.task (by simp [ht]), fun hp _ h => ?_⟩
  obtain ⟨hroute, hqueued⟩ := Serves.route (ht ▸ h) hp
  rw [hroute]
  exact hqueued

/-- The edge asks no control query on these connections. -/
theorem WorkerStep.answerControl {frame_id : Str} {s : Worker.Sent}
    (ht : c.task = .controlling frame_id) : WorkerStep W c (c.write W s) := by
  obtain ⟨hedge, hinbox, hsent, hlog, hcalls⟩ := write_frame (W := W) c s
  exact ⟨hedge, hinbox, hsent, hlog, hcalls ▸ List.Subset.refl _,
    fun h => absurd h.task (by simp [ht]), fun _ _ h => (Serves.not_controlling (ht ▸ h)).elim⟩

/-- The engine is done, and the reply written or given up. -/
theorem WorkerStep.finish {job : Job} {o : EngineOutcome} {s : Worker.Sent}
    (ht : c.task = .running job)
    (hs : ∀ doc, s.doc = some doc →
      (Worker.send W.py job.frame_id (Worker.inferReply job o)).doc = some doc) :
    WorkerStep W c ((c.called job o).write W s) := by
  obtain ⟨hedge, hinbox, hsent, hlog, hcalls⟩ := write_frame (W := W) (c.called job o) s
  refine ⟨hedge, hinbox, hsent, hlog, hcalls ▸ List.subset_append_left _ _,
    fun h => absurd h.task (by simp [ht]), fun {p out rest b} _ _ h => ?_⟩
  obtain ⟨rfl, htodo, hup, hreply⟩ := Serves.running_inv (ht ▸ h)
  rw [htodo]
  cases hdoc : s.doc with
  | none =>
    simp only [Conn.write, hdoc, Conn.called, hup, hreply]
    split
    · exact .silent
    · exact .dead
  | some doc =>
    simp only [Conn.write, hdoc, Conn.called, hup]
    rw [← List.append_assoc, hreply, List.nil_append]
    refine .replied (by split <;> simp) ⟨o, List.mem_append_right _ (.head _), hs doc hdoc⟩

end Worker

/-! ## The edge's steps -/

/-- A reply the edge takes for an answer is one. -/
theorem Answers.of_reply {calls : Calls} {b d : Bytes} {p : PendingFrame} {doc : Json Str}
    {r : Response} (hp : processBinary W.cfg b = .pending p) (hdoc : Replies W calls p doc)
    (hd : d = W.py.dumps doc) (hr : Edge.infer W.fromSlice (.reply d) = .ok r) :
    Answers W calls b r := by
  subst hd
  refine ⟨?_, .inr ⟨p, doc, hp, hdoc, hr⟩⟩
  obtain ⟨o, -, hsent⟩ := hdoc
  have hnames : Worker.NamesFrame p.header.frame_id doc :=
    @Worker.namesFrame_of_send W.py (jobOf p) o doc hsent
  rw [Bridge.frameId_of_decodeReply (W.fromSlice_dumps doc) hnames hr]
  exact (Edge.processBinary_pending _ hp).frame_id

/-- Out of the silence a new exchange starts with both frames to be written. -/
theorem Serves.begin {calls : Calls} {p : PendingFrame} {up reply : Bytes} {task : Task}
    (h : Quiet up reply task) :
    Serves W calls p ([] ++ stream [W.toText (headerOf p), p.jpeg]) up reply task := by
  obtain ⟨rfl, rfl, htask⟩ := h
  rcases htask with hr | hx | rfl
  · exact .waiting (.inl hr) (by simp)
  · exact .waiting (.inr hx) (by simp)
  · exact .dead

/-- The message is looked at, and the handler goes on by its outcome. -/
theorem Inv.process {c : Conn} {b : Bytes} (h : Inv W c) (he : c.edge = .processing b) :
    Inv W { c with edge := Conn.afterProcessing W (processBinary W.cfg b) } := by
  obtain ⟨pending, hd, hp⟩ := h.phase
  simp only [Phase, he] at hp
  obtain ⟨rfl, hq⟩ := hp
  refine ⟨h.in_order, _, hd, ?_⟩
  cases ho : processBinary W.cfg b with
  | pending p => exact ⟨b, rfl, ho, .start, .begin hq⟩
  | fatalFraming fault => trivial
  | perFrame frame_id fault => exact ⟨b, rfl, ho, hq⟩

theorem Inv.reject {c : Conn} {frame_id : Str} {fault : Edge.FrameFault} (h : Inv W c)
    (he : c.edge = .rejecting frame_id fault) :
    Inv W
      { c with
        edge := .top
        log := c.log ++ [.text (.error ⟨frame_id, fault.code, fault.message⟩)] } := by
  obtain ⟨pending, hd, hp⟩ := h.phase
  simp only [Phase, he] at hp
  obtain ⟨b, rfl, ho, hq⟩ := hp
  refine ⟨by simpa [List.filterMap_cons, WsEvent.frame?] using h.in_order, none, ?_, rfl, hq⟩
  exact .text hd ⟨Edge.frameIdOf_perFrame _ ho, .inl ⟨frame_id, fault, ho, rfl⟩⟩

theorem Inv.answer {c : Conn} {r : Response} (h : Inv W c) (he : c.edge = .replying r) :
    Inv W { c with edge := .top, log := c.log ++ [.text r] } := by
  obtain ⟨pending, hd, hp⟩ := h.phase
  simp only [Phase, he] at hp
  obtain ⟨b, rfl, ha, hq⟩ := hp
  exact ⟨by simpa [List.filterMap_cons, WsEvent.frame?] using h.in_order, none, .text hd ha,
    rfl, hq⟩

theorem Inv.encodes {c : Conn} {p : PendingFrame} {d : Bytes} {rest : List Bytes} (h : Inv W c)
    (he : c.edge = .sending p [] (d :: rest)) (hlen : d.length ≤ Edge.maxFrameLength) :
    Inv W { c with edge := .sending p (encode d) rest } := by
  obtain ⟨pending, hd, hp⟩ := h.phase
  simp only [Phase, he] at hp
  obtain ⟨b, hb, ho, hu, hv⟩ := hp
  refine ⟨h.in_order, pending, hd, b, hb, ho, ?_, hv⟩
  cases hu with
  | start => exact .header hlen
  | header hh => exact .payload hh hlen

theorem Inv.flush {c : Conn} {p : PendingFrame} {now later : Bytes} {rest : List Bytes}
    (h : Inv W c) (he : c.edge = .sending p (now ++ later) rest) :
    Inv W { c with edge := .sending p later rest, up := c.up ++ now } := by
  obtain ⟨pending, hd, hp⟩ := h.phase
  simp only [Phase, he] at hp
  obtain ⟨b, hb, ho, hu, hv⟩ := hp
  refine ⟨h.in_order, pending, hd, b, hb, ho, ?_, hv.flush (List.append_assoc ..)⟩
  generalize hout : now ++ later = out at hu
  cases hu with
  | start => rw [(List.append_eq_nil_iff.mp hout).2]; exact .start
  | header hh => exact .header hh
  | payload hh hj => exact .payload hh hj

/-- The reply has arrived whole, so the stream behind it is empty again. -/
theorem Inv.reply {c : Conn} {p : PendingFrame} {d rest : Bytes} {r : Response} (h : Inv W c)
    (he : c.edge = .awaiting p) (hdown : decode Edge.maxFrameLength c.down = .frame d rest)
    (hr : Edge.infer W.fromSlice (.reply d) = .ok r) :
    Inv W { c with edge := .replying r, down := rest } := by
  obtain ⟨pending, hd, hp⟩ := h.phase
  simp only [Phase, he] at hp
  obtain ⟨b, hb, ho, -, hv⟩ := hp
  obtain ⟨hcut, hlen⟩ := (decode_eq_frame_iff maxFrameLength_lt).mp hdown
  rw [hcut, List.append_assoc] at hv
  obtain ⟨doc, hdoc, hdumps, hq⟩ := hv.replied_of_frame hlen
  exact ⟨h.in_order, pending, hd, b, hb, .of_reply ho hdoc hdumps hr, hq⟩

/-! ## Every step -/

/-- One case for each step of the handler and of the task. -/
theorem Inv.step {c c' : Conn} {u : LockUse} (h : Inv W c) (hs : ConnStep W u c c') :
    Inv W c' := by
  obtain ⟨pending, hd, hp⟩ := h.phase
  cases hs with
  | sends m =>
    refine ⟨?_, pending, hd, hp⟩
    simp only [List.filterMap_append, h.in_order, List.append_assoc]
  | connect he _ =>
    simp only [Phase, he] at hp
    exact ⟨h.in_order, pending, hd, hp⟩
  | leave _ hpc =>
    rcases hpc with rfl | rfl <;> exact ⟨h.in_order, pending, hd, trivial⟩
  | ignore _ hin =>
    refine ⟨?_, pending, hd, hp⟩
    simpa [hin, List.filterMap_cons, Message.binary?] using h.in_order
  -- the log gains what the inbox loses
  | @receive _ b rest he hin =>
    simp only [Phase, he] at hp
    obtain ⟨rfl, hq⟩ := hp
    refine ⟨?_, some b, .frame b hd, rfl, hq⟩
    simpa [hin, List.filterMap_cons, Message.binary?, WsEvent.frame?] using h.in_order
  | process he => exact h.process he
  | reject he => exact h.reject he
  | answer he => exact h.answer he
  | connectFails _ | rejectFails _ | answerFails _ | close _ | encodeFails _ _ | flushFails _ _
  | badReply _ _ _ | noReply _ _ => exact ⟨h.in_order, pending, hd, trivial⟩
  | encodes he hlen => exact h.encodes he hlen
  | flush he => exact h.flush he
  | awaits he =>
    simp only [Phase, he] at hp
    exact ⟨h.in_order, pending, hd, hp⟩
  | reply he hdown hr => exact h.reply he hdown hr
  | readHeader ht hup => exact h.worker (.readHeader ht hup)
  | readPayload ht hup => exact h.worker (.readPayload ht hup)
  -- a task that ends leaves at most the beginning of a reply
  | readFails _ _ | cancel _ | cancelRunning _ => exact h.worker (.ended (List.prefix_refl _))
  | route ht => exact h.worker (.route ht)
  | answerControl ht _ => exact h.worker (.answerControl ht)
  | acquire ht => exact h.worker (.acquire ht)
  | finish ht _ => exact h.worker (.finish ht fun _ hdoc => hdoc)
  | finishLost ht _ _ => exact h.worker (.finish ht fun _ hdoc => absurd hdoc (by simp))
  | flushReply ho => exact h.worker (.flushReply ho)

variable (W) in
/-- **Replies correlate**, over every run: however many clients there are, whatever they send,
    whatever the engine does and however the steps interleave. -/
theorem replies_correlate {ι : Type} [DecidableEq ι] (as : List (Option ι)) :
    Transition.Always (Step W) (fun S => ∀ i, Correlated W (S.conns i)) System.start as := by
  refine Transition.Always.mono (P := fun S : System ι => ∀ i, Inv W (S.conns i))
    (fun _ h i => (h i).correlated) as
    (Transition.always_of_invariant (fun S a S' h hs => ?_) as fun _ => Inv.start)
  intro j
  cases hs with
  | @conn i u c lock hc _ =>
    rcases eq_or_ne j i with rfl | hj
    · simpa using (h j).step hc
    · simpa [hj] using h j
  | crash => exact (h j).worker (.ended (List.nil_prefix))

end LocateAnything.Stream
