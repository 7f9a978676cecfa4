import LocateAnything.Lib.Transition
import LocateAnything.Worker.Run
import Mathlib.Logic.Function.Basic

/-!
# `WorkerApp.lock`: one inference at a time

The tasks of all connections, between their awaits, with the lock they share and the threads
`asyncio.to_thread` runs `engine.run` in. The lock is a queue: whoever is at its head takes it
when it is free, and nobody takes it past the queue. It is held by a task, not by a thread:
`wait_for` gives up waiting, the `async with` unwinds, and the call goes on in its thread.

`executing_iff` says what that leaves of the promise. As long as no call is given up, or a
call that is given up ends before anybody takes the lock, at most one call executes; and one
more executes as soon as the lock is taken before that. Between the expiry and
`_hard_exit_for_restart` there is the `await` of the error reply, and whoever is next in the
queue comes first.

The calls are numbered, so that a thread can be spoken of after its task has left it. The
invariant is the discipline of the lock: whoever waits for a call holds it, and a call that
executes is waited for or has been given up (`Inv`). With it a step that takes the lock adds
one call to those that were given up and still execute, and a step that does not adds none.
That is the equivalence for one step, and the rule for runs makes it one for all of them.
-/

set_option autoImplicit false

namespace LocateAnything.Worker.InferenceLock

open Framing (Bytes)
open Transition (Always Each Run)

/-! ## The tasks -/

/-- Where the task of a connection is suspended. -/
inductive Pc where
  /-- In one of the two `read_frame`. -/
  | reading
  /-- In the `write_frame` of a reply, inside the `try` or not. -/
  | replying (guarded : Bool)
  /-- In the `write_frame` of an `except` clause. -/
  | reporting (exits : Bool)
  /-- In `self.lock.acquire`. -/
  | queued (job : Job)
  /-- In `asyncio.wait_for`, with the lock. -/
  | running (job : Job) (call : Nat)
  | ended

structure State (ι : Type) where
  pc : ι → Pc
  /-- Whose `async with self.lock` has been entered. -/
  lock : Option ι
  /-- Who waits for it, in order. -/
  waiters : List ι
  /-- The calls of `engine.run` a thread executes. -/
  executing : List Nat
  /-- History: the calls `wait_for` has given up. -/
  abandoned : List Nat
  /-- The number of calls so far. -/
  calls : Nat
  exited : Bool

/-- What happens between two awaits of a task, or in a thread. -/
inductive Action (ι : Type) where
  /-- A request has been read; `control` is what `capabilities()` or `info()` raises. -/
  | request (i : ι) (header payload : Bytes) (control : Option Fault)
  /-- The task that waits longest for the lock takes it. -/
  | granted (i : ι)
  /-- A thread has come to the end of its call. -/
  | ends (call : Nat)
  /-- `wait_for` hands on what the call has come to. -/
  | resumes (i : ι) (o : EngineOutcome)
  /-- `LA_INFERENCE_TIMEOUT_S` is over. -/
  | expires (i : ι)
  /-- `write_frame` comes back, perhaps by raising. -/
  | writes (i : ι) (raised : Option Fault)
  /-- The connection ends while nothing of it is under way. -/
  | leaves (i : ι)

section Steps
variable {ι : Type} [DecidableEq ι] (py : Python)

namespace State

def goto (s : State ι) (i : ι) (pc : Pc) : State ι := { s with pc := Function.update s.pc i pc }

/-- Behind `async with self.lock`: `to_thread` starts the call. -/
def enter (s : State ι) (i : ι) (job : Job) : State ι :=
  { s with
    pc := Function.update s.pc i (.running job s.calls)
    lock := some i
    executing := s.calls :: s.executing
    calls := s.calls + 1 }

/-- `self.lock.acquire()`, which does not wait only where nobody else does. -/
def acquire (s : State ι) (i : ι) (job : Job) : State ι :=
  -- a lock that is free but waited for is left to the queue
  if s.lock = none ∧ s.waiters = [] then s.enter i job
  else { s.goto i (.queued job) with waiters := s.waiters ++ [i] }

/-- The `async with` unwinds. -/
def release (s : State ι) : State ι := { s with lock := none }

/-- `os._exit`, which ends the threads with everything else. -/
def exit (s : State ι) : State ι := { s with executing := [], exited := true }

end State

/-- Where `_infer` or a control query leads. -/
def answered (o : Except Fault (Json Str)) : Pc :=
  match o with
  | .ok _ => .replying true
  | .error f => .reporting f.exits

/-- **One step**, if it can be taken. -/
def step (s : State ι) (a : Action ι) : Option (State ι) :=
  if s.exited then none
  else
    match a with
    | .request i header payload control =>
      match s.pc i with
      | .reading =>
        match route py header payload with
        | .unusable _ => some (s.goto i (.replying false))
        | .refused _ _ => some (s.goto i (.replying true))
        | .capabilities _ | .info _ =>
          match control with
          | none => some (s.goto i (.replying true))
          | some f => some (s.goto i (.reporting f.exits))
        | .infer job => some (s.acquire i job)
      | _ => none
    | .granted i =>
      match s.pc i with
      | .queued job =>
        if s.lock = none ∧ s.waiters.head? = some i then
          some ({ s with waiters := s.waiters.tail }.enter i job)
        else none
      | _ => none
    | .ends call => some { s with executing := s.executing.filter (· ≠ call) }
    | .resumes i o =>
      match s.pc i with
      | .running job call =>
        if call ∈ s.executing then none
        else some ((s.goto i (answered (inferReply job o))).release)
      | _ => none
    | .expires i =>
      match s.pc i with
      | .running job call =>
        -- the thread is not asked: whether it executes the call is no longer anybody's business
        some { (s.goto i (answered (inferReply job (.error .timeout)))).release with
          abandoned := call :: s.abandoned }
      | _ => none
    | .writes i raised =>
      match s.pc i with
      -- only a reply inside the `try` is followed by another
      | .replying guarded =>
        match raised with
        | none => some (s.goto i .reading)
        | some f => some (s.goto i (if guarded then .reporting f.exits else .ended))
      | .reporting exits =>
        -- whether the error reply could be written does not matter in front of the exit
        if exits then some s.exit
        else some (s.goto i (if raised.isNone then .reading else .ended))
      | _ => none
    | .leaves i =>
      match s.pc i with
      | .reading => some (s.goto i .ended)
      | _ => none

def Step (s : State ι) (a : Action ι) (s' : State ι) : Prop := step py s a = some s'

/-- The worker listens, and nobody has sent anything. -/
def State.start : State ι :=
  { pc := fun _ => .reading, lock := none, waiters := [], executing := [], abandoned := [],
    calls := 0, exited := false }

/-- The action takes the lock: by coming to a free one, or by being let in. -/
def Takes (s : State ι) : Action ι → Prop
  | .request _ header payload _ =>
    (s.lock = none ∧ s.waiters = []) ∧ ∃ job, route py header payload = .infer job
  | .granted _ => True
  | _ => False

/-- **The condition**: nobody takes the lock while a call that has been given up still
    executes. It is on the state in front of the step, and says nothing about who else
    executes. -/
def Orderly (s : State ι) (a : Action ι) : Prop :=
  Takes py s a → ∀ call ∈ s.abandoned, call ∉ s.executing

/-! ## What a step can do -/

/-- The call a task waits for. -/
def Pc.call? : Pc → Option Nat
  | running _ call => some call
  | _ => none

theorem call?_answered (o : Except Fault (Json Str)) : (answered o).call? = none := by
  cases o <;> rfl

/-- What a step does with the lock and the calls; `true` where it takes the lock. The actions
    come down to five effects, and every invariant is shown for these. -/
inductive Effect (s : State ι) : Bool → State ι → Prop where
  | takes {i : ι} {job : Job} {waiters : List ι} : s.lock = none →
    Effect s true ({ s with waiters }.enter i job)
  /-- A task without a call moves on, and comes by no call. -/
  | moves {i : ι} {pc : Pc} {waiters : List ι} : (s.pc i).call? = none → pc.call? = none →
    Effect s false { s with pc := Function.update s.pc i pc, waiters }
  | exits : Effect s false s.exit
  | ends {call : Nat} : Effect s false { s with executing := s.executing.filter (· ≠ call) }
  /-- A task is through with its call: the call has ended, or has been given up. -/
  | releases {i : ι} {pc : Pc} {call : Nat} {abandoned : List Nat} :
    (s.pc i).call? = some call → pc.call? = none → s.abandoned ⊆ abandoned →
    (call ∈ s.executing → call ∈ abandoned) →
    Effect s false { s with pc := Function.update s.pc i pc, lock := none, abandoned }

variable {py}

theorem effect_of_request {s s' : State ι} {i : ι} {header payload : Bytes}
    {control : Option Fault} (h : Step py s (.request i header payload control) s') :
    ∃ b, Effect s b s' ∧ (b = true ↔ Takes py s (.request i header payload control)) := by
  obtain ⟨-, h⟩ := Option.ite_none_left_eq_some.mp h
  dsimp only at h
  split at h
  case h_2 => exact absurd h (by simp)
  rename_i hpc
  have hidle : (s.pc i).call? = none := by
    rw [hpc]
    rfl
  have hmoves : ∀ pc : Pc, pc.call? = none → (∀ job, route py header payload ≠ .infer job) →
      s' = s.goto i pc →
      ∃ b, Effect s b s' ∧ (b = true ↔ Takes py s (.request i header payload control)) := by
    intro pc hcall hroute hs'
    refine ⟨false, hs' ▸ .moves hidle hcall, ?_⟩
    constructor
    · intro hfalse
      exact absurd hfalse (by simp)
    · rintro ⟨-, job, hjob⟩
      exact absurd hjob (hroute job)
  cases hroute : route py header payload with
  | unusable doc =>
    rw [hroute] at h
    exact hmoves (.replying false) rfl (by simp [hroute]) (Option.some.inj h).symm
  | refused frame_id doc =>
    rw [hroute] at h
    exact hmoves (.replying true) rfl (by simp [hroute]) (Option.some.inj h).symm
  | capabilities frame_id | info frame_id =>
    rw [hroute] at h
    cases control with
    | none => exact hmoves (.replying true) rfl (by simp [hroute]) (Option.some.inj h).symm
    | some f => exact hmoves (.reporting f.exits) rfl (by simp [hroute]) (Option.some.inj h).symm
  | infer job =>
    rw [hroute] at h
    obtain rfl := (Option.some.inj h).symm
    unfold State.acquire
    by_cases hfree : s.lock = none ∧ s.waiters = []
    · rw [if_pos hfree]
      exact ⟨true, .takes hfree.1, by simp [Takes, hfree, hroute]⟩
    · rw [if_neg hfree]
      refine ⟨false, .moves hidle rfl, ?_⟩
      constructor
      · intro hfalse
        exact absurd hfalse (by simp)
      · intro htakes
        exact absurd htakes.1 hfree

/-- A task is through with its call, if only because it gives it up. -/
theorem effect_of_released {s : State ι} {i : ι} {job : Job} {call : Nat} {abandoned : List Nat}
    {o : Except Fault (Json Str)} (hpc : s.pc i = .running job call)
    (hsub : s.abandoned ⊆ abandoned) (hended : call ∈ s.executing → call ∈ abandoned) :
    Effect s false { (s.goto i (answered o)).release with abandoned } := by
  have hcall : (s.pc i).call? = some call := by
    rw [hpc]
    rfl
  exact .releases hcall (call?_answered o) hsub hended

theorem effect_of_writes {s s' : State ι} {i : ι} {raised : Option Fault}
    (h : Step py s (.writes i raised) s') : Effect s false s' := by
  obtain ⟨-, h⟩ := Option.ite_none_left_eq_some.mp h
  dsimp only at h
  cases hpc : s.pc i with
  | reading | queued | running | ended =>
    rw [hpc] at h
    exact absurd h (by simp)
  | replying guarded =>
    have hidle : (s.pc i).call? = none := by
      rw [hpc]
      rfl
    rw [hpc] at h
    cases raised with
    | none =>
      obtain rfl := Option.some.inj h
      exact .moves hidle rfl
    | some f =>
      obtain rfl := Option.some.inj h
      exact .moves hidle (by cases guarded <;> rfl)
  | reporting exits =>
    have hidle : (s.pc i).call? = none := by
      rw [hpc]
      rfl
    rw [hpc] at h
    cases exits with
    | true =>
      obtain rfl := Option.some.inj h
      exact .exits
    | false =>
      obtain rfl := Option.some.inj h
      exact .moves hidle (by cases raised <;> rfl)

/-- **Every step has one of these effects**, and takes the lock where `Takes` says so. -/
theorem effect_of_step {s s' : State ι} {a : Action ι} (h : Step py s a s') :
    ∃ b, Effect s b s' ∧ (b = true ↔ Takes py s a) := by
  cases a with
  | request i header payload control => exact effect_of_request h
  | writes i raised => exact ⟨false, effect_of_writes h, by simp [Takes]⟩
  | granted i =>
    obtain ⟨-, h⟩ := Option.ite_none_left_eq_some.mp h
    dsimp only at h
    split at h
    · obtain ⟨hfree, h⟩ := Option.ite_none_right_eq_some.mp h
      obtain rfl := Option.some.inj h
      exact ⟨true, .takes hfree.1, by simp [Takes]⟩
    · exact absurd h (by simp)
  | ends call =>
    obtain ⟨-, h⟩ := Option.ite_none_left_eq_some.mp h
    obtain rfl := Option.some.inj h
    exact ⟨false, .ends, by simp [Takes]⟩
  | resumes i o =>
    obtain ⟨-, h⟩ := Option.ite_none_left_eq_some.mp h
    dsimp only at h
    split at h
    · rename_i job call hpc
      obtain ⟨hended, h⟩ := Option.ite_none_left_eq_some.mp h
      obtain rfl := Option.some.inj h
      refine ⟨false, ?_, by simp [Takes]⟩
      exact effect_of_released hpc (List.Subset.refl _) fun hmem => absurd hmem hended
    · exact absurd h (by simp)
  | expires i =>
    obtain ⟨-, h⟩ := Option.ite_none_left_eq_some.mp h
    dsimp only at h
    split at h
    · rename_i job call hpc
      obtain rfl := Option.some.inj h
      refine ⟨false, ?_, by simp [Takes]⟩
      -- the call may still execute, but it has been given up
      exact effect_of_released hpc (List.subset_cons_self _ _) fun _ => List.mem_cons_self ..
    · exact absurd h (by simp)
  | leaves i =>
    obtain ⟨-, h⟩ := Option.ite_none_left_eq_some.mp h
    dsimp only at h
    split at h
    · rename_i hpc
      have hidle : (s.pc i).call? = none := by
        rw [hpc]
        rfl
      obtain rfl := Option.some.inj h
      exact ⟨false, .moves hidle rfl, by simp [Takes]⟩
    · exact absurd h (by simp)

/-! ## The lock and the calls -/

/-- Whoever waits for a call has the lock, and nobody else's call executes unless it has been
    given up. -/
structure Inv (s : State ι) : Prop where
  owner : ∀ i, (s.pc i).call? ≠ none → s.lock = some i
  accounted : ∀ call ∈ s.executing, call ∈ s.abandoned ∨ ∃ i, (s.pc i).call? = some call

omit [DecidableEq ι] in
theorem inv_start : Inv (State.start : State ι) where
  owner := fun _ h => absurd rfl h
  accounted := fun _ h => absurd h (by simp [State.start])

omit [DecidableEq ι] in
/-- Where the lock is free, every call that executes has been given up. -/
theorem Inv.abandoned_of_free {s : State ι} (hinv : Inv s) (hfree : s.lock = none) {call : Nat}
    (h : call ∈ s.executing) : call ∈ s.abandoned := by
  rcases hinv.accounted call h with h | ⟨i, hi⟩
  · exact h
  · have howner := hinv.owner i (by rw [hi]; simp)
    rw [hfree] at howner
    exact absurd howner (by simp)

omit [DecidableEq ι] in
theorem Inv.eq_of_call {s : State ι} (hinv : Inv s) {i j : ι} (hi : (s.pc i).call? ≠ none)
    (hj : (s.pc j).call? ≠ none) : i = j :=
  Option.some.inj ((hinv.owner i hi).symm.trans (hinv.owner j hj))

theorem call?_update {s : State ι} {i j : ι} {pc : Pc} {call : Nat} (h : (s.pc i).call? = none)
    (hj : (s.pc j).call? = some call) : (Function.update s.pc i pc j).call? = some call := by
  by_cases hij : j = i
  · subst hij
    rw [h] at hj
    exact absurd hj (by simp)
  · rwa [Function.update_of_ne hij]

/-- A task that moves on without a call does not wait for one. -/
theorem call?_of_update {s : State ι} {i j : ι} {pc : Pc} (hpc : pc.call? = none)
    (hj : (Function.update s.pc i pc j).call? ≠ none) : j ≠ i ∧ (s.pc j).call? ≠ none := by
  by_cases hij : j = i
  · subst hij
    rw [Function.update_self] at hj
    exact absurd hpc hj
  · rw [Function.update_of_ne hij] at hj
    exact ⟨hij, hj⟩

theorem Inv.takes {s : State ι} (hinv : Inv s) (hfree : s.lock = none) (i : ι) (job : Job)
    (waiters : List ι) : Inv ({ s with waiters }.enter i job) := by
  constructor
  · intro j hj
    by_cases hij : j = i
    · rw [hij]
      rfl
    · have hj' : (s.pc j).call? ≠ none := by
        simpa only [State.enter, Function.update_of_ne hij] using hj
      exact absurd (hfree.symm.trans (hinv.owner j hj')) (by simp)
  · intro call hcall
    rcases List.mem_cons.mp hcall with rfl | hcall
    · right
      exact ⟨i, by simp [State.enter, Pc.call?]⟩
    · left
      exact hinv.abandoned_of_free hfree hcall

theorem Inv.moves {s : State ι} (hinv : Inv s) {i : ι} {pc : Pc} {waiters : List ι}
    (hidle : (s.pc i).call? = none) (hpc : pc.call? = none) :
    Inv { s with pc := Function.update s.pc i pc, waiters } := by
  constructor
  · intro j hj
    exact hinv.owner j (call?_of_update hpc hj).2
  · intro call hcall
    rcases hinv.accounted call hcall with h | ⟨j, hj⟩
    · exact .inl h
    · exact .inr ⟨j, call?_update hidle hj⟩

theorem Inv.releases {s : State ι} (hinv : Inv s) {i : ι} {pc : Pc} {call : Nat}
    {abandoned : List Nat} (hi : (s.pc i).call? = some call) (hpc : pc.call? = none)
    (hsub : s.abandoned ⊆ abandoned) (hended : call ∈ s.executing → call ∈ abandoned) :
    Inv { s with pc := Function.update s.pc i pc, lock := none, abandoned } := by
  have hi' : (s.pc i).call? ≠ none := by
    rw [hi]
    simp
  constructor
  · intro j hj
    obtain ⟨hij, hj⟩ := call?_of_update hpc hj
    exact absurd (hinv.eq_of_call hj hi') hij
  · intro call' hcall
    rcases hinv.accounted call' hcall with h | ⟨j, hj⟩
    · exact .inl (hsub h)
    · by_cases hij : j = i
      · -- the call that is released is the one that has ended or been given up
        subst hij
        obtain rfl := Option.some.inj (hi.symm.trans hj)
        exact .inl (hended hcall)
      · right
        exact ⟨j, by simpa only [Function.update_of_ne hij] using hj⟩

theorem inv_step {s s' : State ι} {a : Action ι} (hinv : Inv s) (h : Step py s a s') : Inv s' := by
  obtain ⟨b, heffect, -⟩ := effect_of_step h
  cases heffect with
  | takes hfree => exact hinv.takes hfree _ _ _
  | moves hidle hpc => exact hinv.moves hidle hpc
  | exits => exact ⟨hinv.owner, fun _ hcall => absurd hcall (by simp [State.exit])⟩
  | ends =>
    constructor
    · exact hinv.owner
    · intro call hcall
      exact hinv.accounted call (List.mem_of_mem_filter hcall)
  | releases hi hpc hsub hended => exact hinv.releases hi hpc hsub hended

/-- **A step keeps the promise exactly if it is orderly.** -/
theorem executing_step {s s' : State ι} {a : Action ι} (hinv : Inv s)
    (hone : s.executing.length ≤ 1) (h : Step py s a s') :
    s'.executing.length ≤ 1 ↔ Orderly py s a := by
  obtain ⟨b, heffect, htakes⟩ := effect_of_step h
  unfold Orderly
  cases heffect with
  | @takes i job waiters hfree =>
    have hlen : (s.calls :: s.executing).length ≤ 1 ↔ s.executing = [] := by
      rw [List.length_cons, ← List.length_eq_zero_iff]
      omega
    show (s.calls :: s.executing).length ≤ 1 ↔ _
    rw [hlen]
    -- the call that is entered is one more
    constructor
    · intro hnil _ call _ hcall
      rw [hnil] at hcall
      exact absurd hcall (by simp)
    · intro horderly
      apply List.eq_nil_iff_forall_not_mem.mpr
      intro call hcall
      exact horderly (htakes.mp rfl) call (hinv.abandoned_of_free hfree hcall) hcall
  | moves => exact iff_of_true hone fun ht => absurd (htakes.mpr ht) (by simp)
  | exits => exact iff_of_true (Nat.zero_le 1) fun ht => absurd (htakes.mpr ht) (by simp)
  | ends =>
    refine iff_of_true ?_ fun ht => absurd (htakes.mpr ht) (by simp)
    exact (List.length_filter_le _ _).trans hone
  | releases => exact iff_of_true hone fun ht => absurd (htakes.mpr ht) (by simp)

end Steps

/-- **When at most one inference executes**: in every state of a run, for any number of connections
    and whatever the calls come to, exactly if nobody in this run takes the lock while a call that
    has been given up still executes. -/
theorem executing_iff {ι : Type} [DecidableEq ι] (py : Python) (as : List (Action ι)) :
    Always (Step py) (fun s => s.executing.length ≤ 1) State.start as ↔
      Each (Step py) (Orderly py) State.start as := by
  apply Transition.always_iff_each
  · intro s a s' hinv h
    exact inv_step hinv h
  · intro s a s' hinv hone h
    exact executing_step hinv hone h
  · exact inv_start
  · exact Nat.zero_le 1

/-- Two connections: the first call is given up, and the second starts beside it, while the error
    reply to the first is being written. -/
theorem second_call_beside_abandoned :
    let py : Python :=
      { plainPython with loads := fun _ => .ok (.obj (sampleHeader "point".toList)) }
    let request : Bool → Action Bool := fun i => .request i [] [0xFF, 0xD8, 0xFF] none
    let run := [request false, request true, .expires false, .granted true]
    (∃ s, Run (Step py) .start run s ∧ s.exited = false ∧ s.executing = [1, 0]) ∧
    ¬ Always (Step py) (fun s => s.executing.length ≤ 1) .start run := by
  intro py request run
  have hrun : ∃ s, Run (Step py) .start run s ∧ s.exited = false ∧ s.executing = [1, 0] :=
    ⟨_, .cons rfl (.cons rfl (.cons rfl (.cons rfl .nil))), rfl, rfl⟩
  refine ⟨hrun, fun h => ?_⟩
  obtain ⟨s, hrun, -, hexecuting⟩ := hrun
  have hlen := h.last hrun
  rw [hexecuting] at hlen
  exact absurd hlen (by decide)

end LocateAnything.Worker.InferenceLock
