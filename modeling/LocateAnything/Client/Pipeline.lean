import Mathlib.Data.List.Enum
import LocateAnything.Lib.Framing
import LocateAnything.Lib.Transition

/-!
# `reference_client.py`: from the camera to the WebSocket

`run_once` starts a thread that captures frames into a bounded queue and a task that takes them
out, encodes them and sends them, beside a task that reads the replies. `capture_thread` blocks in
`q.put` while the queue is full, and ends it with a sentinel.

A frame is in one of four places: in the thread's hand in front of `q.put`, in the queue, in the
sender's hand, or done with. `enqueued` and `taken` are history: the frames put into the queue, and
those the sender is done with. The invariant (`Inv`) says that these four, read from the end, are
the frames captured, in order; all that is said of the client's frames follows from it. The queue
is bounded by `--queue-max` only if that is positive, as a `queue.Queue` has it.
-/

set_option autoImplicit false

namespace LocateAnything.Client

open Framing (Bytes)

/-- Where `capture_thread` is. `unopened` is told apart from `done`, because a thread that has
    ended there has put no sentinel. -/
inductive CapturePc (φ : Type) where
  | opening
  /-- The loop condition and `cap.read()`. -/
  | reading
  /-- `q.put((frame_idx, frame))` -/
  | putting (frame : φ)
  /-- `q.put(None)` -/
  | releasing
  | done
  /-- The source could not be opened: the thread has returned in front of its `try`. -/
  | unopened

/-- Where `sender` is. The item it holds is part of the place: it is out of the queue and not
    yet done with. -/
inductive SenderPc (φ : Type) where
  /-- `q.get` -/
  | getting
  /-- `encode_jpeg` -/
  | encoding (item : Nat × φ)
  /-- `ws.send` -/
  | sending (item : Nat × φ) (jpeg : Bytes)
  | returned
  /-- `ws.send` has raised. -/
  | failed (item : Nat × φ)

/-- Where `receiver` is. What it reads is none of this file's concern, but that it ends, or
    fails, is what `run_once` waits for. -/
inductive ReceiverPc where
  | reading
  | ended
  | failed
  deriving DecidableEq

inductive Connection where
  | opened
  /-- By a Close frame with 1000 or 1001, or otherwise. -/
  | closed (ok : Bool)
  deriving DecidableEq

/-- The state of a run. The last three fields are history: nothing in `step` looks at them. -/
structure Pipeline (φ : Type) where
  capture : CapturePc φ
  queue : List (Option (Nat × φ))
  stop_event : Bool
  frame_idx : Nat
  sender : SenderPc φ
  receiver : ReceiverPc
  ws : Connection
  enqueued : List φ
  taken : List (Nat × φ)
  sent : List (Nat × Bytes)

/-- What a run depends on. The frames are of any type, as only `resize` and `encode_jpeg` look
    into them. -/
structure Source (φ : Type) where
  /-- `--queue-max` -/
  queue_max : Int
  /-- The resize; `none` where `cv2` raises. -/
  resize : φ → Option φ
  /-- `encode_jpeg` -/
  encode_jpeg : φ → Option Bytes

inductive Action (φ : Type) where
  /-- `cap.isOpened()` -/
  | openSource (ok : Bool)
  /-- A turn of the loop: `cap.read()` yields a frame or none. -/
  | read (frame : Option φ)
  /-- The loop condition fails. -/
  | stopSeen
  | put
  | putSentinel
  | get
  | encode
  | send
  /-- The server closes, or the connection breaks. -/
  | close (ok : Bool)
  /-- The reader of the replies sees that, … -/
  | receive
  /-- … or fails on a reply. -/
  | receiverFails
  /-- The `finally` of `run_once`. -/
  | leave

namespace Pipeline

variable {φ : Type} (S : Source φ)

/-- `q.put` does not block: the queue is unbounded, or has room. The sentinel takes room as
    well. -/
def room (p : Pipeline φ) : Bool := S.queue_max ≤ 0 ∨ (p.queue.length : Int) < S.queue_max

/-- A turn of the loop. A frame that cannot be resized ends the loop like a source that has
    run out. -/
def read (p : Pipeline φ) (frame : Option φ) : Pipeline φ :=
  match frame.bind S.resize with
  | some frame => { p with capture := .putting frame }
  | none => { p with capture := .releasing }

/-- **One step of a run.** -/
def step (p : Pipeline φ) : Action φ → Option (Pipeline φ)
  | .openSource ok =>
    match p.capture with
    | .opening =>
      some (if ok then { p with capture := .reading }
        else { p with capture := .unopened, stop_event := true })
    | _ => none
  | .read frame =>
    match p.capture, p.stop_event with
    | .reading, false => some (p.read S frame)
    | _, _ => none
  | .stopSeen =>
    match p.capture, p.stop_event with
    | .reading, true => some { p with capture := .releasing }
    | _, _ => none
  | .put =>
    match p.capture with
    | .putting frame =>
      if p.room S then
        some { p with
          capture := .reading
          queue := p.queue ++ [some (p.frame_idx, frame)]
          frame_idx := p.frame_idx + 1
          enqueued := p.enqueued ++ [frame] }
      else none
    | _ => none
  | .putSentinel =>
    match p.capture with
    | .releasing =>
      if p.room S then some { p with capture := .done, queue := p.queue ++ [none] } else none
    | _ => none
  | .get =>
    match p.sender, p.queue with
    | .getting, some item :: rest => some { p with sender := .encoding item, queue := rest }
    | .getting, none :: rest => some { p with sender := .returned, queue := rest }
    | _, _ => none
  | .encode =>
    match p.sender with
    | .encoding item =>
      match S.encode_jpeg item.2 with
      | some jpeg => some { p with sender := .sending item jpeg }
      -- logged, and the frame is skipped
      | none => some { p with sender := .getting, taken := p.taken ++ [item] }
    | _ => none
  | .send =>
    match p.sender, p.ws with
    | .sending item jpeg, .opened =>
      some { p with
        sender := .getting
        taken := p.taken ++ [item]
        sent := p.sent ++ [(item.1, jpeg)] }
    | .sending item _, .closed _ => some { p with sender := .failed item }
    | _, _ => none
  | .close ok =>
    match p.ws with
    | .opened => some { p with ws := .closed ok }
    | .closed _ => none
  | .receive =>
    match p.receiver, p.ws with
    | .reading, .closed true => some { p with receiver := .ended }
    | .reading, .closed false => some { p with receiver := .failed }
    | _, _ => none
  | .receiverFails =>
    match p.receiver with
    | .reading => some { p with receiver := .failed }
    | _ => none
  | .leave =>
    -- `gather` returns when both tasks have, and raises when one of them does
    match p.sender, p.receiver with
    | .failed _, _ | _, .failed | .returned, .ended =>
      some { p with
        stop_event := true
        ws := match p.ws with
          | .opened => .closed true
          | ws => ws }
    | _, _ => none

def Step (p : Pipeline φ) (a : Action φ) (p' : Pipeline φ) : Prop := p.step S a = some p'

/-- Behind the handshake of the WebSocket. -/
def start : Pipeline φ where
  capture := .opening
  queue := []
  stop_event := false
  frame_idx := 0
  sender := .getting
  receiver := .reading
  ws := .opened
  enqueued := []
  taken := []
  sent := []

/-- The frames captured: those put into the queue, and the one in the thread's hand while it waits
    for room. -/
def captured (p : Pipeline φ) : List φ :=
  p.enqueued ++ match p.capture with
    | .putting frame => [frame]
    | _ => []

/-- The item the sender holds. One that could not be sent is still in its hand. -/
def hand (p : Pipeline φ) : List (Nat × φ) :=
  match p.sender with
  | .encoding item | .sending item _ | .failed item => [item]
  | .getting | .returned => []

/-- The sentinel, while it is in the queue: from the end of the thread to the return of the
    sender. -/
def sentinel (p : Pipeline φ) : List (Option (Nat × φ)) :=
  match p.capture, p.sender with
  | .done, .returned => []
  | .done, _ => [none]
  | _, _ => []

/-- Frames with their numbers, which are given in the order of `put`. -/
def numbered (frames : List φ) : List (Nat × φ) := frames.zipIdx.map Prod.swap

/-- The message of a frame, if it can be encoded. -/
def encoded (item : Nat × φ) : Option (Nat × Bytes) :=
  (S.encode_jpeg item.2).map fun jpeg => (item.1, jpeg)

/-! ## What a step does -/

/-- The steps of `step`, one by one: what each of them asks and what it changes. Proofs about
    a step go by these and do not unfold it. -/
inductive Move (p : Pipeline φ) : Action φ → Pipeline φ → Prop where
  | opened (hc : p.capture = .opening) : Move p (.openSource true) { p with capture := .reading }
  | unopened (hc : p.capture = .opening) :
    Move p (.openSource false) { p with capture := .unopened, stop_event := true }
  | frame {raw : Option φ} {frame : φ} (hc : p.capture = .reading) (hraw : raw ≠ none) :
    Move p (.read raw) { p with capture := .putting frame }
  | noFrame {raw : Option φ} (hc : p.capture = .reading) :
    Move p (.read raw) { p with capture := .releasing }
  | stopSeen (hc : p.capture = .reading) : Move p .stopSeen { p with capture := .releasing }
  | put {frame : φ} (hc : p.capture = .putting frame) (hroom : p.room S = true) :
    Move p .put { p with
      capture := .reading
      queue := p.queue ++ [some (p.frame_idx, frame)]
      frame_idx := p.frame_idx + 1
      enqueued := p.enqueued ++ [frame] }
  | putSentinel (hc : p.capture = .releasing) (hroom : p.room S = true) :
    Move p .putSentinel { p with capture := .done, queue := p.queue ++ [none] }
  | getFrame {item : Nat × φ} {rest : List (Option (Nat × φ))} (hs : p.sender = .getting)
    (hq : p.queue = some item :: rest) :
    Move p .get { p with sender := .encoding item, queue := rest }
  | getSentinel {rest : List (Option (Nat × φ))} (hs : p.sender = .getting)
    (hq : p.queue = none :: rest) : Move p .get { p with sender := .returned, queue := rest }
  | encode {item : Nat × φ} {jpeg : Bytes} (hs : p.sender = .encoding item)
    (hjpeg : S.encode_jpeg item.2 = some jpeg) :
    Move p .encode { p with sender := .sending item jpeg }
  | skip {item : Nat × φ} (hs : p.sender = .encoding item) (hjpeg : S.encode_jpeg item.2 = none) :
    Move p .encode { p with sender := .getting, taken := p.taken ++ [item] }
  | send {item : Nat × φ} {jpeg : Bytes} (hs : p.sender = .sending item jpeg)
    (hw : p.ws = .opened) :
    Move p .send { p with
      sender := .getting
      taken := p.taken ++ [item]
      sent := p.sent ++ [(item.1, jpeg)] }
  | sendFails {item : Nat × φ} {jpeg : Bytes} (hs : p.sender = .sending item jpeg)
    (hw : p.ws ≠ .opened) : Move p .send { p with sender := .failed item }
  | close {ok : Bool} : Move p (.close ok) { p with ws := .closed ok }
  | receive {pc : ReceiverPc} : Move p .receive { p with receiver := pc }
  | receiverFails : Move p .receiverFails { p with receiver := .failed }
  | leave {ws : Connection} : Move p .leave { p with stop_event := true, ws := ws }

variable {S} {p p' : Pipeline φ}

theorem Step.move {a : Action φ} (h : p.Step S a p') : Move S p a p' := by
  unfold Step step at h
  cases a with
  | openSource ok =>
    dsimp only at h
    split at h
    · rename_i hc
      obtain rfl := Option.some.inj h
      cases ok with
      | true => exact .opened hc
      | false => exact .unopened hc
    · exact absurd h (by simp)
  | read raw =>
    dsimp only at h
    split at h
    · rename_i hc _
      obtain rfl := Option.some.inj h
      unfold Pipeline.read
      split
      · rename_i hraw
        exact .frame hc (by rintro rfl; simp at hraw)
      · exact .noFrame hc
    · exact absurd h (by simp)
  | stopSeen =>
    dsimp only at h
    split at h
    · rename_i hc _
      obtain rfl := Option.some.inj h
      exact .stopSeen hc
    · exact absurd h (by simp)
  | put =>
    dsimp only at h
    split at h
    · rename_i frame hc
      split at h
      · rename_i hroom
        obtain rfl := Option.some.inj h
        exact .put hc hroom
      · exact absurd h (by simp)
    · exact absurd h (by simp)
  | putSentinel =>
    dsimp only at h
    split at h
    · rename_i hc
      split at h
      · rename_i hroom
        obtain rfl := Option.some.inj h
        exact .putSentinel hc hroom
      · exact absurd h (by simp)
    · exact absurd h (by simp)
  | get =>
    dsimp only at h
    split at h
    · rename_i item rest hs hq
      obtain rfl := Option.some.inj h
      exact .getFrame hs hq
    · rename_i rest hs hq
      obtain rfl := Option.some.inj h
      exact .getSentinel hs hq
    · exact absurd h (by simp)
  | encode =>
    dsimp only at h
    split at h
    · rename_i item hs
      split at h
      · rename_i jpeg hjpeg
        obtain rfl := Option.some.inj h
        exact .encode hs hjpeg
      · rename_i hjpeg
        obtain rfl := Option.some.inj h
        exact .skip hs hjpeg
    · exact absurd h (by simp)
  | send =>
    dsimp only at h
    split at h
    · rename_i item jpeg hs hw
      obtain rfl := Option.some.inj h
      exact .send hs hw
    · rename_i item jpeg ok hs hw
      obtain rfl := Option.some.inj h
      exact .sendFails hs (by rw [hw]; simp)
    · exact absurd h (by simp)
  | close ok =>
    dsimp only at h
    split at h
    · obtain rfl := Option.some.inj h
      exact .close
    · exact absurd h (by simp)
  | receive =>
    dsimp only at h
    split at h
    · obtain rfl := Option.some.inj h
      exact .receive
    · obtain rfl := Option.some.inj h
      exact .receive
    · exact absurd h (by simp)
  | receiverFails =>
    dsimp only at h
    split at h
    · obtain rfl := Option.some.inj h
      exact .receiverFails
    · exact absurd h (by simp)
  | leave =>
    dsimp only at h
    split at h <;>
    first
    | (obtain rfl := Option.some.inj h; exact .leave)
    | exact absurd h (by simp)

/-! ## What holds in every state of a run -/

/-- What holds in every state of a run. `order` is the one that matters: the frames put are,
    from the oldest on, those done with, the one in the sender's hand, and those in the queue.
    The others say what else a step needs to keep it. -/
structure Inv (S : Source φ) (p : Pipeline φ) : Prop where
  /-- Every frame put is done with, in the sender's hand or in the queue, in order. -/
  order : ∃ items, p.queue = items.map some ++ p.sentinel ∧
    numbered p.enqueued = p.taken ++ p.hand ++ items
  sent : p.sent = p.taken.filterMap (encoded S)
  frame_idx : p.frame_idx = p.enqueued.length
  room : 0 < S.queue_max → (p.queue.length : Int) ≤ S.queue_max
  holding : ∀ item jpeg, p.sender = .sending item jpeg → S.encode_jpeg item.2 = some jpeg
  unopened : p.capture = .opening ∨ p.capture = .unopened →
    p.enqueued = [] ∧ p.queue = [] ∧ p.sender = .getting
  returned : p.sender = .returned → p.capture = .done ∧ p.queue = []

theorem numbered_concat (frames : List φ) (frame : φ) :
    numbered (frames ++ [frame]) = numbered frames ++ [(frames.length, frame)] := by
  simp [numbered, List.zipIdx_append]

theorem inv_start : Inv S (start : Pipeline φ) where
  order := ⟨[], rfl, rfl⟩
  sent := rfl
  frame_idx := rfl
  room := fun h => by simpa [start] using h.le
  holding := fun _ _ h => by simp [start] at h
  unopened := fun _ => ⟨rfl, rfl, rfl⟩
  returned := fun h => by simp [start] at h

theorem room_append (h : p.room S = true) (x : Option (Nat × φ)) :
    0 < S.queue_max → ((p.queue ++ [x]).length : Int) ≤ S.queue_max := by
  intro hpos
  simp only [Pipeline.room, decide_eq_true_eq] at h
  simp only [List.length_append, List.length_singleton]
  omega

theorem sentinel_of_ne_done (hc : p.capture ≠ .done) : p.sentinel = [] := by
  unfold sentinel
  split <;> simp_all

theorem sentinel_of_done (hc : p.capture = .done) (hs : p.sender ≠ .returned) :
    p.sentinel = [none] := by
  unfold sentinel
  split <;> simp_all

/-- Before its end the capture thread has put no sentinel, and the sender has not returned. -/
theorem Inv.not_returned (hi : Inv S p) (hc : p.capture ≠ .done) : p.sender ≠ .returned :=
  fun hr => hc (hi.returned hr).1

/-- The capture thread goes on without the queue. -/
theorem Inv.moveCapture {pc : CapturePc φ} {stop : Bool} (hi : Inv S p) (hc : p.capture ≠ .done)
    (hpc : pc ≠ .done) (hu : pc = .opening ∨ pc = .unopened → p.capture = .opening) :
    Inv S { p with capture := pc, stop_event := stop } where
  order := by
    obtain ⟨items, hq, ho⟩ := hi.order
    rw [sentinel_of_ne_done hc] at hq
    exact ⟨items, by rw [sentinel_of_ne_done hpc]; exact hq, ho⟩
  sent := hi.sent
  frame_idx := hi.frame_idx
  room := hi.room
  holding := hi.holding
  unopened := fun h => hi.unopened (.inl (hu h))
  returned := fun hr => absurd hr (hi.not_returned hc)

/-- The other parties come and go without the pipeline. -/
theorem Inv.others {stop : Bool} {receiver : ReceiverPc} {ws : Connection} (hi : Inv S p) :
    Inv S { p with stop_event := stop, receiver := receiver, ws := ws } :=
  ⟨hi.order, hi.sent, hi.frame_idx, hi.room, hi.holding, hi.unopened, hi.returned⟩

theorem Inv.put {frame : φ} (hi : Inv S p) (hc : p.capture = .putting frame)
    (hroom : p.room S = true) :
    Inv S { p with
      capture := .reading
      queue := p.queue ++ [some (p.frame_idx, frame)]
      frame_idx := p.frame_idx + 1
      enqueued := p.enqueued ++ [frame] } where
  order := by
    obtain ⟨items, hq, ho⟩ := hi.order
    rw [sentinel_of_ne_done (by rw [hc]; simp), List.append_nil] at hq
    refine ⟨items ++ [(p.frame_idx, frame)], ?_, ?_⟩
    · rw [sentinel_of_ne_done (by simp), hq, List.map_append, List.append_nil]
      rfl
    · rw [numbered_concat, ho, hi.frame_idx, ← List.append_assoc]
      rfl
  sent := hi.sent
  frame_idx := by rw [hi.frame_idx, List.length_append, List.length_singleton]
  room := room_append hroom _
  holding := hi.holding
  unopened := fun h => by simp at h
  returned := fun hr => absurd hr (hi.not_returned (by rw [hc]; simp))

theorem Inv.putSentinel (hi : Inv S p) (hc : p.capture = .releasing) (hroom : p.room S = true) :
    Inv S { p with capture := .done, queue := p.queue ++ [none] } where
  order := by
    obtain ⟨items, hq, ho⟩ := hi.order
    rw [sentinel_of_ne_done (by rw [hc]; simp), List.append_nil] at hq
    have hsentinel :
        ({ p with capture := .done, queue := p.queue ++ [none] } : Pipeline φ).sentinel = [none] :=
      sentinel_of_done rfl (hi.not_returned (by rw [hc]; simp))
    exact ⟨items, by rw [hsentinel, ← hq], ho⟩
  sent := hi.sent
  frame_idx := hi.frame_idx
  room := room_append hroom _
  holding := hi.holding
  unopened := fun h => by simp at h
  returned := fun hr => absurd hr (hi.not_returned (by rw [hc]; simp))

/-- What is taken out of the queue is the oldest frame, or the sentinel behind the last. -/
theorem Inv.getFrame {item : Nat × φ} {rest : List (Option (Nat × φ))} (hi : Inv S p)
    (hs : p.sender = .getting) (hq : p.queue = some item :: rest) :
    Inv S { p with sender := .encoding item, queue := rest } where
  order := by
    obtain ⟨items, hq', ho⟩ := hi.order
    have hsentinel : ({ p with sender := .encoding item, queue := rest } : Pipeline φ).sentinel =
        p.sentinel := by
      unfold sentinel
      rw [hs]
      cases p.capture <;> rfl
    cases items with
    | nil =>
      -- the sentinel is no frame
      rw [hq] at hq'
      unfold sentinel at hq'
      split at hq' <;> simp at hq'
    | cons item' items =>
      rw [hq, List.map_cons, List.cons_append, List.cons.injEq, Option.some.injEq] at hq'
      obtain ⟨rfl, hrest⟩ := hq'
      refine ⟨items, by rw [hsentinel]; exact hrest, ?_⟩
      rw [ho]
      simp [hand, hs]
  sent := hi.sent
  frame_idx := hi.frame_idx
  room := fun h => by
    have := hi.room h
    rw [hq, List.length_cons] at this
    dsimp only
    omega
  holding := fun _ _ h => by simp at h
  unopened := fun h => by
    have := (hi.unopened h).2.1
    rw [hq] at this
    exact absurd this (by simp)
  returned := fun h => by simp at h

/-- Behind the sentinel there is nothing, so a sender that returns has left nothing in the
    queue. -/
theorem Inv.getSentinel {rest : List (Option (Nat × φ))} (hi : Inv S p)
    (hs : p.sender = .getting) (hq : p.queue = none :: rest) :
    Inv S { p with sender := .returned, queue := rest } := by
  obtain ⟨items, hq', ho⟩ := hi.order
  have hdone : p.capture = .done := by
    by_contra hc
    rw [sentinel_of_ne_done hc, List.append_nil, hq] at hq'
    cases items <;> simp at hq'
  rw [sentinel_of_done hdone (by rw [hs]; simp), hq] at hq'
  have hitems : items = [] := by
    cases items with
    | nil => rfl
    | cons item items => simp at hq'
  subst hitems
  have hrest : rest = [] := by simpa using hq'
  subst hrest
  exact
    { order := ⟨[], by simp [sentinel, hdone], by rw [ho]; simp [hand, hs]⟩
      sent := hi.sent
      frame_idx := hi.frame_idx
      room := fun h => by simpa using h.le
      holding := fun _ _ h => by simp at h
      unopened := fun h => by rw [show _ = CapturePc.done from hdone] at h; simp at h
      returned := fun _ => ⟨hdone, rfl⟩ }

/-- The sender goes on with the item in its hand, or puts it behind. -/
theorem Inv.moveSender {item : Nat × φ} {pc : SenderPc φ} {taken : List (Nat × φ)}
    {sent : List (Nat × Bytes)} (hi : Inv S p) (hs : p.hand = [item]) (hr : pc ≠ .returned)
    (hhold : ∀ item jpeg, pc = .sending item jpeg → S.encode_jpeg item.2 = some jpeg)
    (hhand : taken ++ ({ p with sender := pc } : Pipeline φ).hand = p.taken ++ [item])
    (hsent : sent = taken.filterMap (encoded S)) :
    Inv S { p with sender := pc, taken := taken, sent := sent } where
  order := by
    obtain ⟨items, hq, ho⟩ := hi.order
    have hne : p.sender ≠ .returned := by
      intro h
      simp [hand, h] at hs
    let p' : Pipeline φ := { p with sender := pc, taken := taken, sent := sent }
    have hsentinel : p'.sentinel = p.sentinel := by
      by_cases hc : p.capture = .done
      · exact (sentinel_of_done (p := p') hc hr).trans (sentinel_of_done hc hne).symm
      · exact (sentinel_of_ne_done (p := p') hc).trans (sentinel_of_ne_done hc).symm
    refine ⟨items, by rw [hsentinel]; exact hq, ?_⟩
    · rw [ho, hs]
      exact congrArg (· ++ items) hhand.symm
  sent := hsent
  frame_idx := hi.frame_idx
  room := hi.room
  holding := hhold
  unopened := fun h => by
    have := (hi.unopened h).2.2
    simp [hand, this] at hs
  returned := fun h => absurd h hr

/-- One lemma for each place a frame may move from. -/
theorem Inv.step {a : Action φ} (hi : Inv S p) (h : p.Step S a p') : Inv S p' := by
  cases h.move with
  | opened hc => exact hi.moveCapture (by rw [hc]; simp) (by simp) fun _ => hc
  | unopened hc => exact hi.moveCapture (by rw [hc]; simp) (by simp) fun _ => hc
  | frame hc => exact hi.moveCapture (by rw [hc]; simp) (by simp) (by simp)
  | noFrame hc => exact hi.moveCapture (by rw [hc]; simp) (by simp) (by simp)
  | stopSeen hc => exact hi.moveCapture (by rw [hc]; simp) (by simp) (by simp)
  | put hc hroom => exact hi.put hc hroom
  | putSentinel hc hroom => exact hi.putSentinel hc hroom
  | getFrame hs hq => exact hi.getFrame hs hq
  | getSentinel hs hq => exact hi.getSentinel hs hq
  | encode hs hjpeg =>
    refine hi.moveSender (by simp [hand, hs]) (by simp) ?_ rfl hi.sent
    intro item jpeg he
    cases he
    exact hjpeg
  | @skip item hs hjpeg =>
    have hhand : p.hand = [item] := by simp [hand, hs]
    refine hi.moveSender hhand (by simp) (by simp) (by simp [hand]) ?_
    rw [hi.sent, List.filterMap_append]
    simp [encoded, hjpeg]
  | @send item jpeg hs _ =>
    have hhand : p.hand = [item] := by simp [hand, hs]
    refine hi.moveSender hhand (by simp) (by simp) (by simp [hand]) ?_
    rw [hi.sent, List.filterMap_append]
    simp [encoded, hi.holding item jpeg hs]
  | sendFails hs => exact hi.moveSender (by simp [hand, hs]) (by simp) (by simp) rfl hi.sent
  | close | receive | receiverFails | leave => exact hi.others

end Pipeline

end LocateAnything.Client
