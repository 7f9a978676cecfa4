import LocateAnything.Client.Pipeline

/-!
# What becomes of the frames

Frames are sent in the order of their capture and none twice. Behind a bounded queue at most two
more than it holds are on their way: one in the hand of the capture thread, which waits for room,
and one in the sender's. While the connection holds and the source could be opened, the client gets
stuck nowhere: without another frame it comes to an end, with every frame sent that could be
encoded.

Two ends are less clean. A source that cannot be opened leaves no sentinel, and the sender waits
for one. And behind a sender that has failed nobody takes from the queue, so that the capture
thread may block in `q.put` for good, on the camera.
-/

set_option autoImplicit false

namespace LocateAnything.Client

open Transition

/-- What the client does of itself, once the camera yields nothing more. -/
def Action.own {φ : Type} : Action φ → Bool
  | .openSource ok => ok
  | .read frame => frame.isNone
  | .stopSeen | .put | .putSentinel | .get | .encode | .send => true
  | .close _ | .receive | .receiverFails | .leave => false

/-- How many steps of its own are ahead of the capture thread, and of the sender on its items. -/
def CapturePc.rank {φ : Type} : CapturePc φ → Nat
  | .opening => 6
  | .reading => 5
  | .putting _ => 9
  | .releasing => 4
  | .done | .unopened => 0

def SenderPc.rank {φ : Type} : SenderPc φ → Nat
  | .encoding _ => 2
  | .sending _ _ => 1
  | .getting | .returned | .failed _ => 0

/-- How often the capture thread puts into the queue, at least, until it ends. -/
def CapturePc.puts {φ : Type} : CapturePc φ → Nat
  | .putting _ => 2
  | .reading | .releasing => 1
  | .opening | .done | .unopened => 0

/-- The thread has ended. -/
def CapturePc.ended {φ : Type} : CapturePc φ → Bool
  | .done | .unopened => true
  | _ => false

namespace Pipeline

variable {φ : Type} {S : Source φ} {p p' : Pipeline φ}

def rank (p : Pipeline φ) : Nat := p.capture.rank + p.sender.rank + 3 * p.queue.length

theorem inv_of_run {as : List (Action φ)} (h : Run (Step S) start as p) : Inv S p :=
  h.invariant (fun _ _ _ hi hs => hi.step hs) inv_start

/-! ## Frames in order -/

theorem length_numbered (frames : List φ) : (numbered frames).length = frames.length := by
  simp [numbered]

theorem length_hand_le (p : Pipeline φ) : p.hand.length ≤ 1 := by
  unfold hand
  split <;> simp

theorem numbered_append (frames more : List φ) :
    numbered frames <+: numbered (frames ++ more) := by
  rw [numbered, numbered, List.zipIdx_append, List.map_append]
  exact List.prefix_append _ _

/-- The frames done with are the first ones captured. -/
theorem Inv.taken_eq (hi : Inv S p) :
    p.taken = (numbered p.captured).take p.taken.length := by
  obtain ⟨items, -, ho⟩ := hi.order
  have hput : p.taken <+: numbered p.enqueued := by
    rw [ho, List.append_assoc]
    exact List.prefix_append _ _
  exact List.prefix_iff_eq_take.mp (hput.trans (numbered_append _ _))

/-- One frame may be in the thread's hand and one in the sender's, beside those in the queue. -/
theorem Inv.captured_le (hi : Inv S p) :
    p.captured.length ≤ p.taken.length + 2 + p.queue.length := by
  obtain ⟨items, hq, ho⟩ := hi.order
  have hlength := congrArg List.length ho
  have hqueue := congrArg List.length hq
  simp only [length_numbered, List.length_append, List.length_map] at hlength hqueue
  have hhand := length_hand_le p
  have hcaptured : p.captured.length ≤ p.enqueued.length + 1 := by
    unfold captured
    rw [List.length_append]
    split <;> simp
  omega

theorem Inv.taken_of_returned (hi : Inv S p) (hr : p.sender = .returned) :
    p.taken = numbered p.captured := by
  obtain ⟨items, hq, ho⟩ := hi.order
  obtain ⟨hdone, hempty⟩ := hi.returned hr
  rw [hempty] at hq
  have hitems : items = [] := by simpa using (List.append_eq_nil_iff.mp hq.symm).1
  have hcaptured : p.captured = p.enqueued := by
    unfold captured
    rw [hdone]
    exact List.append_nil _
  rw [hcaptured, ho, hitems]
  simp [hand, hr]

theorem Inv.sent_eq (hi : Inv S p) :
    p.sent = ((numbered p.captured).take p.taken.length).filterMap (encoded S) := by
  rw [← hi.taken_eq]
  exact hi.sent

theorem Inv.sent_of_returned (hi : Inv S p) (hr : p.sender = .returned) :
    p.sent = (numbered p.captured).filterMap (encoded S) := by
  rw [← hi.taken_of_returned hr]
  exact hi.sent

/-- **Frames are sent in the order of their capture**, each once and under its own number. Behind a
    bounded queue at most two more than it holds are captured and not done with: one waits in the
    thread's hand for room, and one is in the sender's. When the sender returns, no frame is missing
    that could be encoded. -/
theorem sent_in_order {as : List (Action φ)} (h : Run (Step S) start as p) :
    p.sent = ((numbered p.captured).take p.taken.length).filterMap (encoded S) ∧
      (0 < S.queue_max → (p.captured.length : Int) ≤ p.taken.length + 2 + S.queue_max) ∧
      (p.sender = .returned →
        p.capture = .done ∧ p.sent = (numbered p.captured).filterMap (encoded S)) := by
  have hi := inv_of_run h
  refine ⟨hi.sent_eq, fun hpos => ?_, fun hr => ⟨(hi.returned hr).1, hi.sent_of_returned hr⟩⟩
  have hle := hi.captured_le
  have hroom := hi.room hpos
  omega

/-- Frames are numbers, and 0 cannot be encoded. -/
def sampleSource : Source Nat where
  queue_max := 1
  resize := some
  encode_jpeg := fun n => if n = 0 then none else some [UInt8.ofNat n]

theorem sent_in_order_two :
    ∃ p, Run (Step sampleSource) start
        [.openSource true, .read (some 0), .put, .get, .encode, .read (some 7), .put, .get, .encode,
          .send, .read none, .putSentinel, .get] p ∧
      p.sent = [(1, [7])] ∧ p.sent = (numbered p.captured).filterMap (encoded sampleSource) := by
  have hrun : Run (Step sampleSource) start
      [.openSource true, .read (some 0), .put, .get, .encode, .read (some 7), .put, .get, .encode,
        .send, .read none, .putSentinel, .get] _ := run_of_exec rfl
  exact ⟨_, hrun, rfl, ((sent_in_order hrun).2.2 rfl).2⟩

/-! ## To the end -/

/-- The connection holds, and the source is not one that could not be opened: `capture_thread` has
    opened it, or has still to try. Behind a failed attempt the sender waits for a sentinel that
    never comes (`unopened_hangs`). -/
structure Flowing (p : Pipeline φ) : Prop where
  opened : p.ws = .opened
  source : p.capture ≠ .unopened
  sender : ∀ item, p.sender ≠ .failed item

/-- **A step of its own brings the client nearer to its end**, and leaves the connection alone. -/
theorem own_step {a : Action φ} (ha : a.own = true) (hf : Flowing p) (h : p.Step S a p') :
    p'.rank < p.rank ∧ Flowing p' := by
  obtain ⟨hw, hc, hs⟩ := hf
  cases h.move with
  | opened hpc =>
    refine ⟨?_, hw, by simp, hs⟩
    simp only [rank, hpc, CapturePc.rank]
    omega
  | frame _ hraw => exact absurd (Option.isNone_iff_eq_none.mp ha) hraw
  | noFrame hpc | stopSeen hpc =>
    refine ⟨?_, hw, by simp, hs⟩
    simp only [rank, hpc, CapturePc.rank]
    omega
  | put hpc | putSentinel hpc =>
    refine ⟨?_, hw, by simp, hs⟩
    simp only [rank, hpc, CapturePc.rank, List.length_append, List.length_singleton]
    omega
  | getFrame hpc hq | getSentinel hpc hq =>
    refine ⟨?_, hw, hc, by simp⟩
    simp only [rank, hpc, hq, SenderPc.rank, List.length_cons]
    omega
  | encode hpc | skip hpc | send hpc =>
    refine ⟨?_, hw, hc, by simp⟩
    simp only [rank, hpc, SenderPc.rank]
    omega
  | sendFails _ hclosed => exact absurd hw hclosed
  | unopened | close | receive | receiverFails | leave => exact absurd ha (by simp [Action.own])

theorem own_run {as : List (Action φ)} (hown : ∀ a ∈ as, a.own = true)
    (h : Run (Step S) p as p') (hf : Flowing p) : as.length + p'.rank ≤ p.rank ∧ Flowing p' := by
  induction h with
  | nil => exact ⟨by simp, hf⟩
  | cons ha _ ih =>
    rw [List.forall_mem_cons] at hown
    obtain ⟨hlt, hf'⟩ := own_step hown.1 hf ha
    obtain ⟨hle, hf''⟩ := ih hown.2 hf'
    rw [List.length_cons]
    exact ⟨by omega, hf''⟩

/-- Nothing blocks both the capture thread and the sender. -/
theorem exists_own_step (hi : Inv S p) (hf : Flowing p) (hr : p.sender ≠ .returned) :
    ∃ a p', Action.own a = true ∧ p.Step S a p' := by
  obtain ⟨hw, hc, hs⟩ := hf
  cases hpc : p.sender with
  | encoding item =>
    refine ⟨.encode, ?_⟩
    simp only [Step, step, hpc]
    cases S.encode_jpeg item.2 <;> exact ⟨_, rfl, rfl⟩
  | sending item jpeg => exact ⟨.send, _, rfl, by simp only [Step, step, hpc, hw]; rfl⟩
  | returned => exact absurd hpc hr
  | failed item => exact absurd hpc (hs item)
  | getting =>
    cases hq : p.queue with
    | cons x rest =>
      refine ⟨.get, ?_⟩
      simp only [Step, step, hpc, hq]
      cases x <;> exact ⟨_, rfl, rfl⟩
    | nil =>
      -- an empty queue has room
      have hroom : p.room S = true := by
        simp only [Pipeline.room, hq, List.length_nil, decide_eq_true_eq]
        omega
      cases hcap : p.capture with
      | opening => exact ⟨.openSource true, _, rfl, by simp only [Step, step, hcap]; rfl⟩
      | reading =>
        cases hstop : p.stop_event with
        | false => exact ⟨.read none, _, rfl, by simp only [Step, step, hcap, hstop]; rfl⟩
        | true => exact ⟨.stopSeen, _, rfl, by simp only [Step, step, hcap, hstop]; rfl⟩
      | putting frame => exact ⟨.put, _, rfl, by simp only [Step, step, hcap, hroom, if_true]; rfl⟩
      | releasing =>
        exact ⟨.putSentinel, _, rfl, by simp only [Step, step, hcap, hroom, if_true]; rfl⟩
      | unopened => exact absurd hcap hc
      | done =>
        -- the sentinel is still in the queue
        obtain ⟨items, hq', -⟩ := hi.order
        rw [sentinel_of_done hcap hr, hq] at hq'
        simp at hq'

/-- **The client is not deadlocked.** While the connection holds and the source opens, it makes no
    more steps of its own than its queue allows for, and where it can make none, every frame has been
    sent that could be encoded. -/
theorem completes {as bs : List (Action φ)} (h : Run (Step S) start as p) (hf : Flowing p)
    (hown : ∀ a ∈ bs, a.own = true) (h' : Run (Step S) p bs p') :
    bs.length ≤ 3 * p.queue.length + 11 ∧
      ((∀ a q, Action.own a = true → ¬ p'.Step S a q) →
        p'.sender = .returned ∧ p'.sent = (numbered p'.captured).filterMap (encoded S)) := by
  obtain ⟨hle, hf'⟩ := own_run hown h' hf
  refine ⟨?_, fun hstuck => ?_⟩
  · have hcapture : p.capture.rank ≤ 9 := by cases p.capture <;> simp [CapturePc.rank]
    have hsender : p.sender.rank ≤ 2 := by cases p.sender <;> simp [SenderPc.rank]
    simp only [rank] at hle
    omega
  · have hi := inv_of_run (h.append h')
    have hr : p'.sender = .returned := by
      by_contra hr
      obtain ⟨a, q, ha, hq⟩ := exists_own_step hi hf' hr
      exact hstuck a q ha hq
    exact ⟨hr, hi.sent_of_returned hr⟩

/-- One frame has been sent, and the camera has yielded no other. -/
def sampleReleasing : Pipeline Nat :=
  { start with
    capture := .releasing
    frame_idx := 1
    enqueued := [7]
    taken := [(0, 7)]
    sent := [(0, [7])] }

theorem completes_at_sentinel :
    ∃ p, Run (Step sampleSource) sampleReleasing [.putSentinel, .get] p ∧ p.sender = .returned ∧
      2 ≤ 3 * sampleReleasing.queue.length + 11 := by
  have hrun : Run (Step sampleSource) start
      [.openSource true, .read (some 7), .put, .get, .encode, .send, .read none] sampleReleasing :=
    run_of_exec rfl
  have hrest : Run (Step sampleSource) sampleReleasing [.putSentinel, .get]
      { sampleReleasing with capture := .done, sender := .returned } := run_of_exec rfl
  have hflowing : Flowing sampleReleasing :=
    ⟨rfl, by simp [sampleReleasing], by simp [sampleReleasing, start]⟩
  exact ⟨_, hrest, rfl, (completes hrun hflowing (by simp [Action.own]) hrest).1⟩

/-! ## A source that cannot be opened -/

theorem unopened_step {a : Action φ} (hc : p.capture = .unopened) (h : p.Step S a p') :
    p'.capture = .unopened := by
  cases h.move with
  | opened hpc | unopened hpc | frame hpc | noFrame hpc | stopSeen hpc | put hpc
  | putSentinel hpc => exact absurd (hc.symm.trans hpc) (by simp)
  | getFrame | getSentinel | encode | skip | send | sendFails => exact hc
  | close | receive | receiverFails | leave => exact hc

/-- **Where the source cannot be opened, the session hangs**: from then on the sender waits for a
    frame, nothing is sent, and only a failure of the receiver ends the session. That the server
    closes it in order does not. -/
theorem unopened_hangs {as bs : List (Action φ)} (h : Run (Step S) start as p)
    (hc : p.capture = .unopened) (h' : Run (Step S) p bs p') :
    p'.sender = .getting ∧ p'.sent = [] ∧
      ((∃ q, p'.Step S .leave q) ↔ p'.receiver = .failed) := by
  have hc' : p'.capture = .unopened := h'.invariant (fun _ _ _ hc hs => unopened_step hc hs) hc
  have hi := inv_of_run (h.append h')
  obtain ⟨henqueued, hqueue, hs⟩ := hi.unopened (.inr hc')
  have htaken : p'.taken = [] := by
    obtain ⟨items, -, ho⟩ := hi.order
    rw [henqueued, List.append_assoc] at ho
    exact (List.append_eq_nil_iff.mp ho.symm).1
  refine ⟨hs, by rw [hi.sent, htaken]; rfl, ?_⟩
  simp only [Step, step, hs]
  cases p'.receiver <;> simp

/-- No camera. -/
def sampleUnopened : Pipeline Nat := { start with capture := .unopened, stop_event := true }

theorem unopened_hangs_close :
    ∃ p, Run (Step sampleSource) sampleUnopened [.close true, .receive] p ∧ p.receiver = .ended ∧
      ¬ ∃ q, p.Step sampleSource .leave q := by
  have hopen : Run (Step sampleSource) start [.openSource false] sampleUnopened := run_of_exec rfl
  have hclose : Run (Step sampleSource) sampleUnopened [.close true, .receive]
      { sampleUnopened with ws := .closed true, receiver := .ended } := run_of_exec rfl
  refine ⟨_, hclose, rfl, ?_⟩
  rw [(unopened_hangs hopen rfl hclose).2.2]
  simp

/-! ## A sender that has failed -/

/-- Whatever the thread puts, it is at most as near to its end as the queue to its limit. -/
theorem failed_step {a : Action φ} {item : Nat × φ} (hs : p.sender = .failed item)
    (h : p.Step S a p') :
    p'.sender = .failed item ∧
      p.queue.length + p.capture.puts ≤ p'.queue.length + p'.capture.puts := by
  cases h.move with
  | opened hc | unopened hc | frame hc | noFrame hc | stopSeen hc | put hc | putSentinel hc =>
    refine ⟨hs, ?_⟩
    simp only [hc, CapturePc.puts, List.length_append, List.length_singleton]
    omega
  | getFrame hpc | getSentinel hpc | encode hpc | skip hpc | send hpc | sendFails hpc =>
    rw [hs] at hpc
    cases hpc
  | close | receive | receiverFails | leave => exact ⟨hs, le_rfl⟩

/-- The capture thread can come to its end. -/
def CanEnd (S : Source φ) (p : Pipeline φ) : Prop :=
  ∃ bs q, Run (Step S) p bs q ∧ q.capture.ended = true

theorem CanEnd.step {a : Action φ} (h : p.Step S a p') (he : CanEnd S p') : CanEnd S p := by
  obtain ⟨bs, q, hrun, hq⟩ := he
  exact ⟨a :: bs, q, .cons h hrun, hq⟩

theorem canEnd_of_ended (h : p.capture.ended = true) : CanEnd S p := ⟨[], p, .nil, h⟩

/-- The queue has room for `n` items more. -/
def Fits (S : Source φ) (p : Pipeline φ) (n : Nat) : Prop :=
  S.queue_max ≤ 0 ∨ ((p.queue.length + n : Nat) : Int) ≤ S.queue_max

theorem Fits.room {n : Nat} (h : Fits S p (n + 1)) : p.room S = true := by
  simp only [Fits, Pipeline.room, decide_eq_true_eq] at h ⊢
  omega

theorem canEnd_of_releasing (hc : p.capture = .releasing) (hfits : Fits S p 1) : CanEnd S p := by
  have hstep : p.Step S .putSentinel { p with capture := .done, queue := p.queue ++ [none] } := by
    simp only [Step, step, hc, hfits.room, if_true]
  exact (canEnd_of_ended rfl).step hstep

theorem canEnd_of_reading (hc : p.capture = .reading) (hfits : Fits S p 1) : CanEnd S p := by
  let q : Pipeline φ := { p with capture := .releasing }
  have hq : CanEnd S q := canEnd_of_releasing rfl hfits
  cases hstop : p.stop_event with
  | false =>
    have hstep : p.Step S (.read none) q := by
      simp only [Step, step, hc, hstop]
      rw [Pipeline.read, Option.bind_none]
    exact hq.step hstep
  | true =>
    have hstep : p.Step S .stopSeen q := by
      simp only [Step, step, hc, hstop, q]
    exact hq.step hstep

theorem canEnd_of_fits (hfits : Fits S p p.capture.puts) : CanEnd S p := by
  cases hc : p.capture with
  | opening =>
    have hstep : p.Step S (.openSource false)
        { p with capture := .unopened, stop_event := true } := by
      simp only [Step, step, hc]
      rfl
    exact (canEnd_of_ended rfl).step hstep
  | done => exact canEnd_of_ended (by rw [hc]; rfl)
  | unopened => exact canEnd_of_ended (by rw [hc]; rfl)
  | releasing =>
    rw [hc] at hfits
    exact canEnd_of_releasing hc hfits
  | reading =>
    rw [hc] at hfits
    exact canEnd_of_reading hc hfits
  | putting frame =>
    rw [hc] at hfits
    have hstep : p.Step S .put { p with
        capture := .reading
        queue := p.queue ++ [some (p.frame_idx, frame)]
        frame_idx := p.frame_idx + 1
        enqueued := p.enqueued ++ [frame] } := by
      simp only [Step, step, hc, hfits.room, if_true]
    refine (canEnd_of_reading rfl ?_).step hstep
    simpa [Fits, CapturePc.puts, add_assoc] using hfits

/-- **Behind a sender that has failed the capture thread ends only if the queue has the room**: for
    the frame it is about to put, if any, and for the sentinel. Otherwise it blocks in `q.put` for
    good, whatever the source yields and though `run_once` has told it to stop. -/
theorem thread_ends_iff {as : List (Action φ)} {item : Nat × φ} (h : Run (Step S) start as p)
    (hs : p.sender = .failed item) :
    (∃ bs q, Run (Step S) p bs q ∧ q.capture.ended = true) ↔
      S.queue_max ≤ 0 ∨ ((p.queue.length + p.capture.puts : Nat) : Int) ≤ S.queue_max := by
  constructor
  · rintro ⟨bs, q, hrun, hq⟩
    have hle : q.sender = .failed item ∧
        p.queue.length + p.capture.puts ≤ q.queue.length + q.capture.puts := by
      refine hrun.invariant (I := fun q => q.sender = .failed item ∧
        p.queue.length + p.capture.puts ≤ q.queue.length + q.capture.puts) ?_ ⟨hs, le_rfl⟩
      rintro q a q' ⟨hf, hle⟩ hstep
      obtain ⟨hf', hle'⟩ := failed_step hf hstep
      exact ⟨hf', hle.trans hle'⟩
    have hputs : q.capture.puts = 0 := by
      revert hq
      cases q.capture <;> simp [CapturePc.ended, CapturePc.puts]
    have hroom := (inv_of_run (h.append hrun)).room
    omega
  · intro hfits
    exact canEnd_of_fits hfits

/-- A second frame is waiting when the connection breaks, and a third is in the thread's hand. -/
theorem thread_ends_iff_blocked :
    ∃ p, Run (Step sampleSource) start
        [.openSource true, .read (some 1), .put, .get, .encode, .read (some 2), .put,
          .read (some 3), .close false, .send, .leave] p ∧
      ¬ ∃ bs q, Run (Step sampleSource) p bs q ∧ q.capture.ended = true := by
  have hrun : Run (Step sampleSource) start
      [.openSource true, .read (some 1), .put, .get, .encode, .read (some 2), .put,
        .read (some 3), .close false, .send, .leave] _ := run_of_exec rfl
  refine ⟨_, hrun, ?_⟩
  rw [thread_ends_iff hrun rfl]
  decide

end Pipeline

end LocateAnything.Client
