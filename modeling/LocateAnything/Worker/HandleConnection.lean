import LocateAnything.Worker.Connection

/-!
# `handle_connection`: one reply for each request

The loop over one connection, with its exits. A request is two frames, and what keeps the loop
in step with the peer is that every way through it takes both frames and writes one frame, or
does not come back to the top. The handler has no say in what its awaits and the code it calls
come to; all of that is the `Turn` of an iteration, and a run is a list of turns.

Two functions say what is to be kept apart here: `answer`, what a turn makes of a header and a
payload, and `turn`, which reads them off the stream and writes. `one_reply_per_request` is
for every stream of requests, whatever stands behind the last one, and every list of turns.

The loop has three places where it writes, and the difference between them is who catches the
exception of a write: nobody, the `except` clauses, or, in front of an exit, a `try` of its
own. None of them writes twice for one request. A reply that is too large is refused before
anything of it is handed over, and replaced; a write that fails later leaves a transport that
is closing, and what would replace it fails there in turn (`writeFrame_of_closing`).
-/

set_option autoImplicit false

namespace LocateAnything.Worker.HandleConnection

open Framing (Bytes Incomplete decode encode stream beValue be32)

/-! ## Reading -/

/-- `LEN_PREFIX` -/
def lenPrefix : Nat := 4

inductive Read where
  | got (data rest : Bytes)
  /-- `IncompleteReadError`: the peer has closed its end. -/
  | incomplete
  /-- `ValueError` -/
  | tooLarge
  /-- The bytes have not come, and the peer has not closed its end. -/
  | waits

/-- `reader.readexactly`, on what the peer has written and is not read yet. Whether the bytes
    come in one piece or in many makes no difference to it, so the stream stands there as a
    whole. -/
def readexactly (eof : Bool) (n : Nat) (s : Bytes) : Read :=
  if n ≤ s.length then .got (s.take n) (s.drop n)
  else if eof then .incomplete
  else .waits

/-- `read_frame` -/
def readFrame (eof : Bool) (s : Bytes) : Read :=
  match readexactly eof lenPrefix s with
  | .got header rest =>
    let size := beValue header
    if size > maxFrameBytes then .tooLarge
    else if size = 0 then .got [] rest
    else readexactly eof size rest
  | other => other

/-! ## Writing -/

/-- What leaves an `await` or a call instead of a value. -/
inductive Raised where
  | fault (f : Fault)
  /-- What is no `Exception`: the task has been cancelled. -/
  | base

structure Writer where
  closing : Bool
  /-- Everything handed to the transport. -/
  out : Bytes

/-- How the transport takes a write. It can fail before anything is handed over, or behind it,
    when the bytes are with the transport. -/
structure Fate where
  /-- It is closing by the time `write_frame` looks. -/
  closing : Bool
  /-- What `drain` raises, if it does. -/
  drain : Option Raised

/-- `write_frame`; `drain` fails only once the transport is closing. -/
def writeFrame (fate : Fate) (data : Bytes) (w : Writer) : Except Raised Unit × Writer :=
  let w := { w with closing := w.closing || fate.closing }
  if w.closing then (.error (.fault (.other "ConnectionError('writer is closing')".toList)), w)
  else if data.length > maxFrameBytes then
    (.error (.fault (.valueError ("outbound frame too large: ".toList ++ Py.str data.length))), w)
  else
    -- both writes go to the transport before the `await`
    let w := { w with out := w.out ++ (be32 data.length ++ data) }
    match fate.drain with
    | none => (.ok (), w)
    | some .base => (.error .base, w)
    | some (.fault f) => (.error (.fault f), { w with closing := true })

/-! ## A request -/

/-- What the handler has no say in, in one iteration. The fields are independent of each
    other, so a list of turns covers every order of failures. -/
structure Turn where
  /-- Reading the header is disturbed: the connection is reset, or the task cancelled. -/
  headerLost : Bool
  payloadLost : Bool
  /-- Reading the JSON raises neither `UnicodeDecodeError` nor `JSONDecodeError`, but something. -/
  parseRaises : Bool
  /-- What is raised inside the `try` before there is a reply, apart from the engine. -/
  strikes : Option Raised
  /-- What `capabilities()` or `info()` comes to. -/
  control : Except Raised (Json Str)
  /-- What the wait for the lock and `engine.run` come to. -/
  engine : EngineCall → Except Raised (InferenceResult × ℚ)
  reply : Fate
  errorReply : Fate

/-- Where an iteration ends. -/
inductive Next where
  /-- At the top of the loop. -/
  | again
  /-- Behind the `finally`, after a `break` or with an exception. -/
  | closed
  /-- In `_hard_exit_for_restart`. -/
  | exited

/-- `req_frame_id`; a header without a place for it is answered outside the `try`. It is bound
    before the kind is looked at, so that every error reply behind it names its frame. -/
def requestId : Routed → Str
  | .unusable _ => []
  | .capabilities frame_id | .info frame_id | .refused frame_id _ => frame_id
  | .infer job => job.frame_id

/-- `resp`, or what is raised in its place. -/
def Turn.response (t : Turn) (routed : Routed) : Except Raised (Json Str) :=
  match t.strikes with
  | some r => .error r
  | none =>
    match routed with
    | .unusable doc | .refused _ doc => .ok doc
    | .capabilities _ | .info _ => t.control
    | .infer job =>
      match t.engine job.call with
      | .ok result => (inferReply job (.ok result)).mapError .fault
      | .error (.fault f) => (inferReply job (.error f)).mapError .fault
      | .error .base => .error .base

/-- The `except` clauses: the error reply, and the exit behind two of them. -/
def exceptClauses (py : Python) (t : Turn) (frame_id : Str) (f : Fault) (w : Writer) :
    Next × Writer :=
  match writeFrame t.errorReply (py.dumps (f.reply py frame_id)) w with
  | (.ok (), w) => (if f.exits then .exited else .again, w)
  -- in front of an exit a failure to write is logged, elsewhere it leaves the handler
  | (.error (.fault _), w) => (if f.exits then .exited else .closed, w)
  | (.error .base, w) => (.closed, w)

/-- The loop body, behind the two reads. -/
def respond (py : Python) (t : Turn) (header payload : Bytes) (w : Writer) : Next × Writer :=
  if t.parseRaises then (.closed, w)
  else
    match route py header payload with
    -- in front of the `try`: nobody catches what `write_frame` raises
    | .unusable doc =>
      match writeFrame t.reply (py.dumps doc) w with
      | (.ok (), w) => (.again, w)
      | (.error _, w) => (.closed, w)
    | routed =>
      match t.response routed with
      | .error (.fault f) => exceptClauses py t (requestId routed) f w
      | .error .base => (.closed, w)
      | .ok doc =>
        match writeFrame t.reply (py.dumps doc) w with
        | (.ok (), w) => (.again, w)
        -- the write is inside the `try`, too
        | (.error (.fault f), w) => exceptClauses py t (requestId routed) f w
        | (.error .base, w) => (.closed, w)

/-! ## The loop -/

/-- Where the handler is, between two iterations. -/
inductive Pc where
  | looping
  /-- In `read_frame`, for bytes that do not come. -/
  | waiting
  | closed
  | exited
  deriving DecidableEq

def Next.pc : Next → Pc
  | again => .looping
  | closed => .closed
  | exited => .exited

structure Session where
  unread : Bytes
  writer : Writer
  pc : Pc
  /-- History: the headers that have been parsed, with their payloads … -/
  taken : List (Bytes × Bytes)
  /-- … and what was unread wherever a length has been asked for. -/
  cuts : List Bytes

/-- One iteration. -/
def Session.turn (py : Python) (eof : Bool) (S : Session) (t : Turn) : Session :=
  match S.pc with
  | .looping =>
    let S := { S with cuts := S.cuts ++ [S.unread] }
    if t.headerLost then { S with pc := .closed }
    else
      match readFrame eof S.unread with
      | .waits => { S with pc := .waiting }
      -- `break`
      | .incomplete | .tooLarge => { S with pc := .closed }
      | .got header rest =>
        let S := { S with unread := rest, cuts := S.cuts ++ [rest] }
        if t.payloadLost then { S with pc := .closed }
        else
          match readFrame eof S.unread with
          | .waits => { S with pc := .waiting }
          | .incomplete | .tooLarge => { S with pc := .closed }
          | .got payload rest =>
            let (next, w) := respond py t header payload S.writer
            { S with
              unread := rest
              writer := w
              pc := next.pc
              taken := S.taken ++ [(header, payload)] }
  | _ => S

/-- `handle_connection`, for as many iterations as there are turns. -/
def serve (py : Python) (eof : Bool) (turns : List Turn) (S : Session) : Session :=
  turns.foldl (Session.turn py eof) S

/-- The connection is open, and the peer writes `s`. -/
def Session.start (s : Bytes) : Session :=
  { unread := s, writer := ⟨false, []⟩, pc := .looping, taken := [], cuts := [] }

/-! ## What is written for a request -/

/-- The reply to a request: what `respond` writes, if it writes anything. -/
def answer (py : Python) (t : Turn) (header payload : Bytes) : Option (Json Str) :=
  match route py header payload with
  | .unusable doc => if (py.dumps doc).length ≤ maxFrameBytes then some doc else none
  | routed =>
    match t.response routed with
    | .ok doc => (send py (requestId routed) (.ok doc)).doc
    | .error (.fault f) => (sendFault py (requestId routed) f).doc
    | .error .base => none

/-- One frame has been written, for `doc?`; or none, and then the handler does not go on. This
    is what every way through the loop body comes to, and what keeps the loop in step with the
    peer. -/
def Wrote (py : Python) (doc? : Option (Json Str)) (w : Writer) (p : Next × Writer) : Prop :=
  (p.1 ≠ .again ∧ p.2.out = w.out) ∨
    ∃ doc, doc? = some doc ∧ p.2.out = w.out ++ encode (py.dumps doc)

section Write
variable {py : Python} {t : Turn} {w : Writer}

theorem writeFrame_cases (fate : Fate) (data : Bytes) (w : Writer) :
    (∃ e, (writeFrame fate data w).1 = .error (.fault e) ∧
      (writeFrame fate data w).2 = { w with closing := true }) ∨
    (maxFrameBytes < data.length ∧ (writeFrame fate data w).1 =
        .error (.fault (.valueError ("outbound frame too large: ".toList ++ Py.str data.length))) ∧
      (writeFrame fate data w).2.out = w.out) ∨
    (data.length ≤ maxFrameBytes ∧ (writeFrame fate data w).2.out = w.out ++ encode data ∧
      ∀ e, (writeFrame fate data w).1 = .error (.fault e) →
        (writeFrame fate data w).2.closing = true) := by
  unfold writeFrame
  dsimp only
  by_cases hclosing : (w.closing || fate.closing) = true
  · left
    rw [if_pos hclosing]
    exact ⟨_, rfl, congrArg (Writer.mk · w.out) hclosing⟩
  rw [if_neg hclosing]
  by_cases hlen : data.length > maxFrameBytes
  · rw [if_pos hlen]
    exact .inr (.inl ⟨hlen, rfl, rfl⟩)
  rw [if_neg hlen]
  refine .inr (.inr ⟨Nat.not_lt.mp hlen, ?_⟩)
  cases fate.drain with
  | none => exact ⟨rfl, fun e h => absurd h (by simp)⟩
  | some r =>
    cases r with
    | base => exact ⟨rfl, fun e h => absurd h (by simp)⟩
    | fault f => exact ⟨rfl, fun _ _ => rfl⟩

theorem writeFrame_of_closing (fate : Fate) (data : Bytes) (h : w.closing = true) :
    (∃ e, (writeFrame fate data w).1 = .error (.fault e)) ∧
      (writeFrame fate data w).2.out = w.out := by
  unfold writeFrame
  dsimp only
  rw [if_pos (by rw [h, Bool.true_or])]
  exact ⟨⟨_, rfl⟩, rfl⟩

theorem exceptClauses_snd (id : Str) (f : Fault) :
    (exceptClauses py t id f w).2 = (writeFrame t.errorReply (py.dumps (f.reply py id)) w).2 := by
  unfold exceptClauses
  obtain ⟨r, w'⟩ := writeFrame t.errorReply (py.dumps (f.reply py id)) w
  cases r with
  | ok _ => rfl
  | error r => cases r <;> rfl

/-- Where the error reply is not written, the handler does not come back to its loop. -/
theorem exceptClauses_of_error {id : Str} {f : Fault} {e : Raised}
    (h : (writeFrame t.errorReply (py.dumps (f.reply py id)) w).1 = .error e) :
    (exceptClauses py t id f w).1 ≠ .again := by
  unfold exceptClauses
  generalize writeFrame t.errorReply (py.dumps (f.reply py id)) w = p at h
  obtain ⟨r, w'⟩ := p
  obtain rfl : r = .error e := h
  cases e with
  | base => simp
  | fault e =>
    show (if f.exits = true then Next.exited else Next.closed) ≠ .again
    split <;> simp

theorem exceptClauses_of_closing (id : Str) (f : Fault) (h : w.closing = true) :
    (exceptClauses py t id f w).1 ≠ .again ∧ (exceptClauses py t id f w).2.out = w.out := by
  obtain ⟨⟨e, he⟩, hout⟩ := writeFrame_of_closing t.errorReply (py.dumps (f.reply py id)) h
  rw [exceptClauses_snd]
  exact ⟨exceptClauses_of_error he, hout⟩

theorem exceptClauses_wrote (id : Str) (f : Fault) :
    Wrote py (sendFault py id f).doc w (exceptClauses py t id f w) := by
  unfold Wrote
  rw [exceptClauses_snd]
  rcases writeFrame_cases t.errorReply (py.dumps (f.reply py id)) w with
    ⟨e, he, hw⟩ | ⟨-, he, hout⟩ | ⟨hlen, hout, -⟩
  · exact .inl ⟨exceptClauses_of_error he, by rw [hw]⟩
  · exact .inl ⟨exceptClauses_of_error he, hout⟩
  · exact .inr ⟨f.reply py id, if_pos hlen, hout⟩

/-- The reply of the `try`, and the clauses behind it. -/
theorem respond_doc_wrote (id : Str) (doc : Json Str) :
    Wrote py (send py id (.ok doc)).doc w
      (match writeFrame t.reply (py.dumps doc) w with
      | (.ok (), w) => (.again, w)
      | (.error (.fault f), w) => exceptClauses py t id f w
      | (.error .base, w) => (.closed, w)) := by
  have hcases := writeFrame_cases t.reply (py.dumps doc) w
  generalize writeFrame t.reply (py.dumps doc) w = p at hcases
  obtain ⟨r, w'⟩ := p
  dsimp only at hcases
  rcases hcases with ⟨e, rfl, rfl⟩ | ⟨hlen, rfl, hout⟩ | ⟨hlen, hout, hclosing⟩
  · -- the transport is closing, and so is the error reply's
    left
    exact exceptClauses_of_closing id e rfl
  · -- too large: the error reply takes its place
    have hdoc : (send py id (.ok doc)).doc = (sendFault py id _).doc :=
      congrArg Sent.doc (if_neg (Nat.not_le.mpr hlen))
    rw [hdoc]
    unfold Wrote
    rw [← hout]
    exact exceptClauses_wrote id _
  · -- written, so that nothing may follow
    have hdoc : (send py id (.ok doc)).doc = some doc := congrArg Sent.doc (if_pos hlen)
    refine .inr ⟨doc, hdoc, ?_⟩
    rw [← hout]
    cases r with
    | ok _ => rfl
    | error e =>
      cases e with
      | base => rfl
      | fault f => exact (exceptClauses_of_closing id f (hclosing f rfl)).2

/-- The reply to a header that cannot be used, outside the `try`. -/
theorem respond_unusable_wrote (doc : Json Str) :
    Wrote py (if (py.dumps doc).length ≤ maxFrameBytes then some doc else none) w
      (match writeFrame t.reply (py.dumps doc) w with
      | (.ok (), w) => (.again, w)
      | (.error _, w) => (.closed, w)) := by
  have hcases := writeFrame_cases t.reply (py.dumps doc) w
  generalize writeFrame t.reply (py.dumps doc) w = p at hcases
  obtain ⟨r, w'⟩ := p
  dsimp only at hcases
  rcases hcases with ⟨e, rfl, rfl⟩ | ⟨-, rfl, hout⟩ | ⟨hlen, hout, -⟩
  · exact .inl ⟨by simp, rfl⟩
  · exact .inl ⟨by simp, hout⟩
  · refine .inr ⟨doc, if_pos hlen, ?_⟩
    cases r <;> exact hout

theorem respond_routed_wrote (routed : Routed) :
    Wrote py
      (match t.response routed with
      | .ok doc => (send py (requestId routed) (.ok doc)).doc
      | .error (.fault f) => (sendFault py (requestId routed) f).doc
      | .error .base => none) w
      (match t.response routed with
      | .error (.fault f) => exceptClauses py t (requestId routed) f w
      | .error .base => (.closed, w)
      | .ok doc =>
        match writeFrame t.reply (py.dumps doc) w with
        | (.ok (), w) => (.again, w)
        | (.error (.fault f), w) => exceptClauses py t (requestId routed) f w
        | (.error .base, w) => (.closed, w)) := by
  cases t.response routed with
  | ok doc => exact respond_doc_wrote (requestId routed) doc
  | error r =>
    cases r with
    | base => exact .inl ⟨by simp, rfl⟩
    | fault f => exact exceptClauses_wrote (requestId routed) f

/-- **What a request leads to**: its own answer, once, or the end. -/
theorem respond_wrote (header payload : Bytes) :
    Wrote py (answer py t header payload) w (respond py t header payload w) := by
  unfold respond
  by_cases hparse : t.parseRaises = true
  · rw [if_pos hparse]
    exact .inl ⟨by simp, rfl⟩
  rw [if_neg hparse]
  unfold answer
  cases route py header payload with
  | unusable doc => exact respond_unusable_wrote doc
  | capabilities frame_id => exact respond_routed_wrote (.capabilities frame_id)
  | info frame_id => exact respond_routed_wrote (.info frame_id)
  | refused frame_id doc => exact respond_routed_wrote (.refused frame_id doc)
  | infer job => exact respond_routed_wrote (.infer job)

end Write

/-! ## What is read -/

section Reading
variable {eof : Bool}

theorem readFrame_eq (s : Bytes) :
    readFrame eof s =
      match decode maxFrameBytes s with
      | .frame d rest => .got d rest
      | .tooLong => .tooLarge
      | .more => if eof then .incomplete else .waits := by
  unfold readFrame readexactly decode lenPrefix
  by_cases h4 : 4 ≤ s.length
  · rw [if_pos h4, if_neg (Nat.not_lt.mpr h4)]
    dsimp only
    by_cases hmax : beValue (s.take 4) > maxFrameBytes
    · rw [if_pos hmax, if_pos hmax]
    rw [if_neg hmax, if_neg hmax]
    by_cases hzero : beValue (s.take 4) = 0
    · rw [if_pos hzero, hzero, if_neg (Nat.not_lt.mpr h4)]
      rfl
    rw [if_neg hzero]
    have hlen : beValue (s.take 4) ≤ (s.drop 4).length ↔ ¬ s.length < 4 + beValue (s.take 4) := by
      rw [List.length_drop]
      omega
    by_cases henough : s.length < 4 + beValue (s.take 4)
    · rw [if_pos henough, if_neg fun h => hlen.mp h henough]
    · rw [if_neg henough, if_pos (hlen.mpr henough)]
  · rw [if_neg h4, if_pos (Nat.not_le.mp h4)]
    cases eof <;> rfl

theorem readFrame_eq_got {s d rest : Bytes} :
    readFrame eof s = .got d rest ↔ decode maxFrameBytes s = .frame d rest := by
  rw [readFrame_eq]
  cases decode maxFrameBytes s with
  | frame d' rest' => simp
  | tooLong => simp
  | more => cases eof <;> simp

theorem incomplete_of_waits {s : Bytes} (h : readFrame eof s = .waits) :
    Incomplete maxFrameBytes s := by
  intro d rest hd
  rw [readFrame_eq_got.mpr hd] at h
  exact absurd h (by simp)

end Reading

/-! ## One iteration -/

theorem Next.pc_eq_looping {n : Next} : n.pc = .looping ↔ n = .again := by
  cases n <;> simp [Next.pc]

theorem Next.pc_ne_waiting (n : Next) : n.pc ≠ .waiting := by
  cases n <;> simp [Next.pc]

theorem turn_of_ended {py : Python} {eof : Bool} {S : Session} (h : S.pc ≠ .looping) (t : Turn) :
    S.turn py eof t = S := by
  unfold Session.turn
  cases hpc : S.pc with
  | looping => exact absurd hpc h
  | waiting | closed | exited => rfl

theorem serve_of_ended {py : Python} {eof : Bool} {S : Session} (h : S.pc ≠ .looping)
    (turns : List Turn) : serve py eof turns S = S := by
  induction turns with
  | nil => rfl
  | cons t ts ih =>
    show serve py eof ts (S.turn py eof t) = S
    rw [turn_of_ended h]
    exact ih

/-- What an iteration can do: not come by a header, or by a payload; or take a request. -/
theorem turn_cases (py : Python) (eof : Bool) {S : Session} (h : S.pc = .looping) (t : Turn) :
    (∃ pc, pc ≠ .looping ∧ (pc = .waiting → Incomplete maxFrameBytes S.unread) ∧
      S.turn py eof t = { S with cuts := S.cuts ++ [S.unread], pc := pc }) ∨
    ∃ header rest, decode maxFrameBytes S.unread = .frame header rest ∧
      ((∃ pc, pc ≠ .looping ∧ (pc = .waiting → Incomplete maxFrameBytes rest) ∧
        S.turn py eof t =
          { S with cuts := S.cuts ++ [S.unread] ++ [rest], unread := rest, pc := pc }) ∨
      ∃ payload rest', decode maxFrameBytes rest = .frame payload rest' ∧
        S.turn py eof t =
          { S with
            unread := rest'
            writer := (respond py t header payload S.writer).2
            pc := (respond py t header payload S.writer).1.pc
            taken := S.taken ++ [(header, payload)]
            cuts := S.cuts ++ [S.unread] ++ [rest] }) := by
  unfold Session.turn
  rw [h]
  dsimp only
  by_cases hlost : t.headerLost = true
  · rw [if_pos hlost]
    exact .inl ⟨.closed, by simp, by simp, rfl⟩
  rw [if_neg hlost]
  cases hread : readFrame eof S.unread with
  | waits => exact .inl ⟨.waiting, by simp, fun _ => incomplete_of_waits hread, rfl⟩
  | incomplete | tooLarge => exact .inl ⟨.closed, by simp, by simp, rfl⟩
  | got header rest =>
    refine .inr ⟨header, rest, readFrame_eq_got.mp hread, ?_⟩
    dsimp only
    by_cases hlost' : t.payloadLost = true
    · rw [if_pos hlost']
      exact .inl ⟨.closed, by simp, by simp, rfl⟩
    rw [if_neg hlost']
    cases hread' : readFrame eof rest with
    | waits => exact .inl ⟨.waiting, by simp, fun _ => incomplete_of_waits hread', rfl⟩
    | incomplete | tooLarge => exact .inl ⟨.closed, by simp, by simp, rfl⟩
    | got payload rest' => exact .inr ⟨payload, rest', readFrame_eq_got.mp hread', rfl⟩

/-! ## A stream of requests -/

abbrev Request := Bytes × Bytes

/-- The frames of requests, in order. -/
def framesOf (pairs : List Request) : List Bytes := pairs.flatMap fun p => [p.1, p.2]

/-- Well-framed requests, one behind the other. -/
def requests (pairs : List Request) : Bytes := stream (framesOf pairs)

/-- Both frames are of a size that is read. -/
def Fits (p : Request) : Prop := p.1.length ≤ maxFrameBytes ∧ p.2.length ≤ maxFrameBytes

/-- What can stand behind the last whole request: a frame that is cut off or announced as too
    large, perhaps behind a header. -/
inductive Tail : Bytes → Prop where
  | header {s : Bytes} : Incomplete maxFrameBytes s → Tail s
  | payload {header s : Bytes} : header.length ≤ maxFrameBytes → Incomplete maxFrameBytes s →
    Tail (encode header ++ s)

/-- A frame begins where only `c` is left of the stream. -/
def FrameStart (pairs : List Request) (tail c : Bytes) : Prop :=
  (∃ frames, frames <:+ framesOf pairs ∧ c = stream frames ++ tail) ∨
    ∃ header : Bytes, header.length ≤ maxFrameBytes ∧ tail = encode header ++ c

/-- **One reply for each request**: what the handler does in these turns, from a session `S₀` at the
    top of its loop to `S`. -/
structure OneReplyEach (py : Python) (turns : List Turn) (pairs : List Request) (tail : Bytes)
    (docs : List (Json Str)) (seen : List Request) (S₀ S : Session) : Prop where
  /-- The replies are all that is written. -/
  written : S.writer.out = S₀.writer.out ++ stream (docs.map py.dumps)
  /-- They answer the first requests, in order, each by its own header and payload. -/
  answers : List.Forall₂ (fun (r : Turn × Request) doc => answer py r.1 r.2.1 r.2.2 = some doc)
    ((turns.zip pairs).take docs.length) docs
  /-- What is parsed are the headers of the first requests, with their payloads. -/
  taken : S.taken = S₀.taken ++ seen
  in_order : seen <+: pairs
  /-- At most the last of these is without a reply … -/
  answered : docs.length ≤ seen.length ∧ seen.length ≤ docs.length + 1
  /-- … and none is where the handler goes on, … -/
  looping : S.pc = .looping → docs.length = turns.length ∧ seen.length = turns.length
  /-- … or waits for a request that does not come. -/
  waiting : S.pc = .waiting → docs.length = pairs.length
  /-- A length is read only where a frame begins. -/
  framed : ∀ c ∈ S.cuts, c ∈ S₀.cuts ∨ FrameStart pairs tail c
  /-- Once the handler has left its loop, nothing more is read or written. -/
  final : S.pc ≠ .looping → ∀ more eof, serve py eof more S = S

section Run
variable {py : Python} {pairs : List Request} {tail : Bytes}

theorem requests_cons (p : Request) (ps : List Request) :
    requests (p :: ps) = encode p.1 ++ (encode p.2 ++ requests ps) := rfl

theorem decode_encode {d : Bytes} (h : d.length ≤ maxFrameBytes) (rest : Bytes) :
    decode maxFrameBytes (encode d ++ rest) = .frame d rest :=
  (Framing.decode_eq_frame_iff (by decide)).mpr ⟨rfl, h⟩

/-- Where no frame is complete, no request is left. -/
theorem pairs_eq_nil_of_incomplete (hfits : ∀ p ∈ pairs, Fits p)
    (h : Incomplete maxFrameBytes (requests pairs ++ tail)) : pairs = [] := by
  cases pairs with
  | nil => rfl
  | cons p ps =>
    rw [requests_cons, List.append_assoc] at h
    exact absurd (decode_encode (hfits p (List.mem_cons_self ..)).1 _) (h _ _)

theorem frameStart_self : FrameStart pairs tail (requests pairs ++ tail) :=
  .inl ⟨framesOf pairs, List.suffix_refl _, rfl⟩

theorem FrameStart.cons {c : Bytes} (p : Request) (h : FrameStart pairs tail c) :
    FrameStart (p :: pairs) tail c := by
  rcases h with ⟨frames, hsuffix, rfl⟩ | h
  · left
    exact ⟨frames, hsuffix.trans (List.suffix_append [p.1, p.2] _), rfl⟩
  · exact .inr h

theorem frameStart_behind_header {header rest : Bytes} (hfits : ∀ p ∈ pairs, Fits p)
    (h : decode maxFrameBytes (requests pairs ++ tail) = .frame header rest) :
    FrameStart pairs tail rest := by
  cases pairs with
  | nil =>
    obtain ⟨hs, hlen⟩ := (Framing.decode_eq_frame_iff (by decide)).mp h
    exact .inr ⟨header, hlen, hs⟩
  | cons p ps =>
    rw [requests_cons, List.append_assoc, decode_encode (hfits p (List.mem_cons_self ..)).1] at h
    obtain ⟨-, rfl⟩ := Framing.Decoded.frame.inj h
    left
    refine ⟨p.2 :: framesOf ps, List.suffix_append [p.1] _, ?_⟩
    rw [Framing.stream_cons, List.append_assoc, List.append_assoc]
    rfl

/-- Behind a header nothing is waited for unless the requests are over. -/
theorem pairs_eq_nil_of_header {header rest : Bytes} (hfits : ∀ p ∈ pairs, Fits p)
    (h : decode maxFrameBytes (requests pairs ++ tail) = .frame header rest)
    (hrest : Incomplete maxFrameBytes rest) : pairs = [] := by
  cases pairs with
  | nil => rfl
  | cons p ps =>
    have hp := hfits p (List.mem_cons_self ..)
    rw [requests_cons, List.append_assoc, decode_encode hp.1] at h
    obtain ⟨-, rfl⟩ := Framing.Decoded.frame.inj h
    rw [List.append_assoc] at hrest
    exact absurd (decode_encode hp.2 _) (hrest _ _)

/-- Two frames in a row are a request; the tail does not hold two. -/
theorem eq_cons_of_request {header rest payload rest' : Bytes} (hfits : ∀ p ∈ pairs, Fits p)
    (htail : Tail tail) (h : decode maxFrameBytes (requests pairs ++ tail) = .frame header rest)
    (h' : decode maxFrameBytes rest = .frame payload rest') :
    ∃ ps, pairs = (header, payload) :: ps ∧ rest' = requests ps ++ tail := by
  cases pairs with
  | nil =>
    change decode maxFrameBytes tail = _ at h
    cases htail with
    | header hs => exact absurd h (hs _ _)
    | payload hlen hs =>
      rw [decode_encode hlen] at h
      obtain ⟨-, rfl⟩ := Framing.Decoded.frame.inj h
      exact absurd h' (hs _ _)
  | cons p ps =>
    have hp := hfits p (List.mem_cons_self ..)
    rw [requests_cons, List.append_assoc, decode_encode hp.1] at h
    obtain ⟨rfl, rfl⟩ := Framing.Decoded.frame.inj h
    rw [List.append_assoc, decode_encode hp.2] at h'
    obtain ⟨rfl, rfl⟩ := Framing.Decoded.frame.inj h'
    exact ⟨ps, rfl, rfl⟩

/-- The handler stops without taking a request. -/
theorem oneReplyEach_of_stopped {turns : List Turn} {S S' : Session}
    (hout : S'.writer = S.writer) (htaken : S'.taken = S.taken) (hpc : S'.pc ≠ .looping)
    (hwaiting : S'.pc = .waiting → pairs = [])
    (hframed : ∀ c ∈ S'.cuts, c ∈ S.cuts ∨ FrameStart pairs tail c) :
    OneReplyEach py turns pairs tail [] [] S S' where
  written := by rw [hout]; exact (List.append_nil _).symm
  answers := .nil
  taken := by rw [htaken, List.append_nil]
  in_order := List.nil_prefix
  answered := ⟨Nat.le_refl 0, Nat.zero_le 1⟩
  looping := fun h => absurd h hpc
  waiting := fun h => by rw [hwaiting h, List.length_nil, List.length_nil]
  framed := hframed
  final := fun h more eof => serve_of_ended h more

/-- The handler takes a request and does not come back to its loop. -/
theorem oneReplyEach_of_last {t : Turn} {ts : List Turn} {p : Request} {ps : List Request}
    {S S' : Session} (hpc : S'.pc ≠ .looping) (hwaiting : S'.pc ≠ .waiting)
    (hout : S'.writer.out = S.writer.out ∨ ∃ doc, answer py t p.1 p.2 = some doc ∧
      S'.writer.out = S.writer.out ++ encode (py.dumps doc))
    (htaken : S'.taken = S.taken ++ [p])
    (hframed : ∀ c ∈ S'.cuts, c ∈ S.cuts ∨ FrameStart (p :: ps) tail c) :
    ∃ docs, OneReplyEach py (t :: ts) (p :: ps) tail docs [p] S S' := by
  have hbase : ∀ docs : List (Json Str), docs.length ≤ 1 →
      S'.writer.out = S.writer.out ++ stream (docs.map py.dumps) →
      List.Forall₂ (fun (r : Turn × Request) doc => answer py r.1 r.2.1 r.2.2 = some doc)
        (((t :: ts).zip (p :: ps)).take docs.length) docs →
      OneReplyEach py (t :: ts) (p :: ps) tail docs [p] S S' := by
    intro docs hlen hwritten hanswers
    exact
      { written := hwritten
        answers := hanswers
        taken := htaken
        in_order := List.prefix_append [p] ps
        answered := ⟨hlen, Nat.le_add_left 1 _⟩
        looping := fun h => absurd h hpc
        waiting := fun h => absurd h hwaiting
        framed := hframed
        final := fun h more eof => serve_of_ended h more }
  rcases hout with hout | ⟨doc, hanswer, hout⟩
  · exact ⟨[], hbase [] (Nat.zero_le 1) (by rw [hout]; exact (List.append_nil _).symm) .nil⟩
  · refine ⟨[doc], hbase [doc] (Nat.le_refl 1) ?_ (.cons hanswer .nil)⟩
    rw [hout, List.map_singleton, Framing.stream_cons, Framing.stream_nil, List.append_nil]

/-- The handler has answered the request `p` and is back at the top of its loop, with `ps` ahead. -/
structure Answered (py : Python) (t : Turn) (p : Request) (ps : List Request) (tail : Bytes)
    (doc : Json Str) (S S₁ : Session) : Prop where
  answer_eq : answer py t p.1 p.2 = some doc
  looping : S₁.pc = .looping
  unread : S₁.unread = requests ps ++ tail
  written : S₁.writer.out = S.writer.out ++ encode (py.dumps doc)
  taken : S₁.taken = S.taken ++ [p]
  framed : ∀ c ∈ S₁.cuts, c ∈ S.cuts ∨ FrameStart (p :: ps) tail c

theorem OneReplyEach.cons {t : Turn} {ts : List Turn} {p : Request} {ps : List Request}
    {doc : Json Str} {docs : List (Json Str)} {seen : List Request} {S S₁ S' : Session}
    (hfirst : Answered py t p ps tail doc S S₁)
    (h : OneReplyEach py ts ps tail docs seen S₁ S') :
    OneReplyEach py (t :: ts) (p :: ps) tail (doc :: docs) (p :: seen) S S' where
  written := by
    rw [h.written, hfirst.written, List.map_cons, Framing.stream_cons, List.append_assoc]
  answers := .cons hfirst.answer_eq h.answers
  taken := by rw [h.taken, hfirst.taken, List.append_assoc, List.singleton_append]
  in_order := (List.cons_prefix_cons).mpr ⟨rfl, h.in_order⟩
  answered := ⟨Nat.succ_le_succ h.answered.1, Nat.succ_le_succ h.answered.2⟩
  looping := fun hpc => by
    obtain ⟨hdocs, hseen⟩ := h.looping hpc
    exact ⟨congrArg Nat.succ hdocs, congrArg Nat.succ hseen⟩
  waiting := fun hpc => congrArg Nat.succ (h.waiting hpc)
  framed := fun c hc => by
    rcases h.framed c hc with hc | hc
    · exact hfirst.framed c hc
    · exact .inr (hc.cons p)
  final := h.final

theorem oneReplyEach_nil {S : Session} (hpc : S.pc = .looping) :
    OneReplyEach py [] pairs tail [] [] S S where
  written := (List.append_nil _).symm
  answers := .nil
  taken := (List.append_nil _).symm
  in_order := List.nil_prefix
  answered := ⟨Nat.le_refl 0, Nat.zero_le 1⟩
  looping := fun _ => ⟨rfl, rfl⟩
  waiting := fun h => absurd (hpc.symm.trans h) (by simp)
  framed := fun _ hc => .inl hc
  final := fun h => absurd hpc h

/-- Where lengths are read in a turn: at the header, … -/
theorem framed_of_header {S : Session} (hunread : S.unread = requests pairs ++ tail) :
    ∀ c ∈ S.cuts ++ [S.unread], c ∈ S.cuts ∨ FrameStart pairs tail c := by
  intro c hc
  rcases List.mem_append.mp hc with hc | hc
  · exact .inl hc
  · rw [List.mem_singleton.mp hc, hunread]
    exact .inr frameStart_self

/-- … and behind it. -/
theorem framed_of_payload {S : Session} {header rest : Bytes} (hfits : ∀ p ∈ pairs, Fits p)
    (hunread : S.unread = requests pairs ++ tail)
    (hread : decode maxFrameBytes S.unread = .frame header rest) :
    ∀ c ∈ S.cuts ++ [S.unread] ++ [rest], c ∈ S.cuts ∨ FrameStart pairs tail c := by
  intro c hc
  rcases List.mem_append.mp hc with hc | hc
  · exact framed_of_header hunread c hc
  · rw [List.mem_singleton.mp hc]
    rw [hunread] at hread
    exact .inr (frameStart_behind_header hfits hread)

/-- **What one turn does**: the handler answers the first request, or leaves its loop. -/
theorem turn_oneReplyEach {eof : Bool} (htail : Tail tail) {S : Session}
    (hfits : ∀ p ∈ pairs, Fits p) (hpc : S.pc = .looping)
    (hunread : S.unread = requests pairs ++ tail) (t : Turn) (ts : List Turn) :
    (∃ p ps doc, pairs = p :: ps ∧ Answered py t p ps tail doc S (S.turn py eof t)) ∨
    (S.turn py eof t).pc ≠ .looping ∧
      ∃ docs seen, OneReplyEach py (t :: ts) pairs tail docs seen S (S.turn py eof t) := by
  rcases turn_cases py eof hpc t with ⟨pc, hne, hwaits, hturn⟩ | ⟨header, rest, hread, hbehind⟩
  · -- no header has come
    right
    rw [hturn]
    refine ⟨hne, [], [], oneReplyEach_of_stopped rfl rfl hne ?_ (framed_of_header hunread)⟩
    intro h
    rw [hunread] at hwaits
    exact pairs_eq_nil_of_incomplete hfits (hwaits h)
  have hframed := framed_of_payload hfits hunread hread
  rw [hunread] at hread
  rcases hbehind with ⟨pc, hne, hwaits, hturn⟩ | ⟨payload, rest', hread', hturn⟩
  · -- no payload has come
    right
    rw [hturn]
    refine ⟨hne, [], [], oneReplyEach_of_stopped rfl rfl hne ?_ hframed⟩
    intro h
    exact pairs_eq_nil_of_header hfits hread (hwaits h)
  obtain ⟨ps, rfl, rfl⟩ := eq_cons_of_request hfits htail hread hread'
  have hwrote := @respond_wrote py t S.writer header payload
  rw [hturn]
  by_cases hagain : (respond py t header payload S.writer).1 = .again
  · -- the loop goes on, behind a reply
    left
    rcases hwrote with ⟨hne, -⟩ | ⟨doc, hanswer, hout⟩
    · exact absurd hagain hne
    · exact ⟨(header, payload), ps, doc, rfl, hanswer, Next.pc_eq_looping.mpr hagain, rfl, hout,
        rfl, hframed⟩
  · right
    have hne : (respond py t header payload S.writer).1.pc ≠ .looping :=
      fun h => hagain (Next.pc_eq_looping.mp h)
    obtain ⟨docs, h⟩ := @oneReplyEach_of_last py tail t ts (header, payload) ps S
      { S with
        unread := requests ps ++ tail
        writer := (respond py t header payload S.writer).2
        pc := (respond py t header payload S.writer).1.pc
        taken := S.taken ++ [(header, payload)]
        cuts := S.cuts ++ [S.unread] ++ [rest] }
      hne (Next.pc_ne_waiting _) (hwrote.imp And.right id) rfl hframed
    exact ⟨hne, docs, _, h⟩

/-- **From the top of the loop on**, turn by turn. -/
theorem serve_oneReplyEach {eof : Bool} (htail : Tail tail) (turns : List Turn) :
    ∀ {pairs : List Request} {S : Session}, (∀ p ∈ pairs, Fits p) → S.pc = .looping →
      S.unread = requests pairs ++ tail →
      ∃ docs seen, OneReplyEach py turns pairs tail docs seen S (serve py eof turns S) := by
  induction turns with
  | nil =>
    intro pairs S _ hpc _
    exact ⟨[], [], oneReplyEach_nil hpc⟩
  | cons t ts ih =>
    intro pairs S hfits hpc hunread
    show ∃ docs seen,
      OneReplyEach py (t :: ts) pairs tail docs seen S (serve py eof ts (S.turn py eof t))
    rcases turn_oneReplyEach htail hfits hpc hunread t ts with
      ⟨p, ps, doc, rfl, hfirst⟩ | ⟨hne, docs, seen, h⟩
    · obtain ⟨docs, seen, hrest⟩ :=
        ih (fun q hq => hfits q (List.mem_cons_of_mem _ hq)) hfirst.looping hfirst.unread
      exact ⟨doc :: docs, p :: seen, hrest.cons hfirst⟩
    · rw [serve_of_ended hne]
      exact ⟨docs, seen, h⟩

/-- The handler has left its loop, or waits, when there are more turns than requests. -/
theorem OneReplyEach.ends {turns : List Turn} {docs : List (Json Str)} {seen : List Request}
    {S S' : Session} (h : OneReplyEach py turns pairs tail docs seen S S')
    (hlt : pairs.length < turns.length) : S'.pc ≠ .looping := by
  intro hpc
  have hseen := (h.looping hpc).2
  have hle := h.in_order.length_le
  omega

end Run

/-- Nothing is left out: every stream is requests, and a tail. -/
theorem exists_requests (s : Bytes) :
    ∃ pairs tail, s = requests pairs ++ tail ∧ (∀ p ∈ pairs, Fits p) ∧ Tail tail := by
  by_cases hs : Incomplete maxFrameBytes s
  · exact ⟨[], s, rfl, by simp, .header hs⟩
  obtain ⟨header, hs⟩ := not_forall.mp hs
  obtain ⟨rest, hs⟩ := not_forall.mp hs
  obtain ⟨hcut, hheader⟩ := (Framing.decode_eq_frame_iff (by decide)).mp (not_not.mp hs)
  by_cases hrest : Incomplete maxFrameBytes rest
  · exact ⟨[], s, rfl, by simp, hcut ▸ .payload hheader hrest⟩
  obtain ⟨payload, hrest⟩ := not_forall.mp hrest
  obtain ⟨rest', hrest⟩ := not_forall.mp hrest
  obtain ⟨hcut', hpayload⟩ := (Framing.decode_eq_frame_iff (by decide)).mp (not_not.mp hrest)
  have hshort : rest'.length < s.length := by
    rw [hcut, hcut', List.length_append, List.length_append, Framing.encode_length]
    omega
  obtain ⟨pairs, tail, hs', hfits, htail⟩ := exists_requests rest'
  refine ⟨(header, payload) :: pairs, tail, ?_, ?_, htail⟩
  · rw [requests_cons, hcut, hcut', hs', List.append_assoc, List.append_assoc]
  · intro p hp
    rcases List.mem_cons.mp hp with rfl | hp
    · exact ⟨hheader, hpayload⟩
    · exact hfits p hp
termination_by s.length

/-- **One response per request, whatever the header.** For every stream of requests with anything
    behind the last, whether or not the peer closes its end, and whatever the turns hold. -/
theorem one_reply_per_request (py : Python) (eof : Bool) (turns : List Turn)
    (pairs : List Request) (tail : Bytes) (hfits : ∀ p ∈ pairs, Fits p) (htail : Tail tail) :
    let S := Session.start (requests pairs ++ tail)
    ∃ docs seen, OneReplyEach py turns pairs tail docs seen S (serve py eof turns S) ∧
      (pairs.length < turns.length → (serve py eof turns S).pc ≠ .looping) := by
  intro S
  obtain ⟨docs, seen, h⟩ := serve_oneReplyEach htail turns hfits (rfl : S.pc = .looping) rfl
  exact ⟨docs, seen, h, h.ends⟩

/-- A turn in which nothing goes wrong. -/
def calm : Turn where
  headerLost := false
  payloadLost := false
  parseRaises := false
  strikes := none
  control := .ok (.obj [])
  engine := fun _ => .error (.fault .timeout)
  reply := ⟨false, none⟩
  errorReply := ⟨false, none⟩

/-- A request, and the first two bytes of another. -/
theorem one_reply_per_request_sample :
    let py : Python :=
      { loads := fun _ => .error (.json 1 2 1 "Expecting property name".toList)
        dumps := fun _ => [0x7B, 0x7D]
        repr := fun _ => []
        inferenceTimeout := "600.0".toList }
    let S := Session.start (requests [([0x7B], [0xFF, 0xD8])] ++ [0, 0])
    ∃ docs seen, OneReplyEach py [calm, calm] [([0x7B], [0xFF, 0xD8])] [0, 0] docs seen S
        (serve py false [calm, calm] S) ∧
      ([([0x7B], [0xFF, 0xD8])].length < [calm, calm].length →
        (serve py false [calm, calm] S).pc ≠ .looping) := by
  intro py
  apply one_reply_per_request py false [calm, calm] [([0x7B], [0xFF, 0xD8])] [0, 0]
  · intro p hp
    obtain rfl := List.mem_singleton.mp hp
    exact ⟨by decide, by decide⟩
  · apply Tail.header
    intro d rest h
    exact absurd h (by simp [decode])

end LocateAnything.Worker.HandleConnection
