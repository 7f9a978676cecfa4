import LocateAnything.Lib.Checks
import LocateAnything.Lib.Framing
import LocateAnything.Lib.Json
import LocateAnything.Worker.Inference
import Mathlib.Data.Char

/-!
# `la_worker.py`: from a request to its reply

The bodies of `handle_connection` and `_infer`, cut at their awaits: `route` is what happens
to the two frames of a request up to the lock, `inferReply` what `_infer` makes of the
engine's outcome, `send` what is written for it. The handler answers every exception of a
request with an error reply; two of them end the process behind it.

The functions are pure because everything between two awaits is. What is awaited, the lock,
the engine and the transport, is put in between by the modules that need it: one takes an
outcome and asks what the edge makes of the reply, another lets many connections wait for one
lock, a third follows a single connection through all of its reads and writes. All of them
start from the same `route`.

Python's part in the texts (`json`, `repr`) is a parameter. Nothing that is shown depends on
how a value is printed, except that a reply may be too large for a frame; so it is the printed
length that decides what is written.
-/

set_option autoImplicit false

namespace LocateAnything.Worker

open Checks
open Framing (Bytes)

/-- `MAX_FRAME_BYTES` -/
def maxFrameBytes : Nat := 16 * 1024 * 1024

/-- Why a header cannot be read. -/
inductive LoadError where
  | unicode (e : Str)
  | json (lineno colno pos : Nat) (msg : Str)

/-- The Python the worker is run with: its JSON in both directions, its `repr`, and how the
    timeout is printed in a message. A `JSONDecodeError` has its position apart since the
    message names it. -/
structure Python where
  /-- `json.loads(b.decode("utf-8"))` -/
  loads : Bytes → Except LoadError (Json Str)
  /-- `json.dumps(d).encode()` -/
  dumps : Json Str → Bytes
  /-- `{d!r}` -/
  repr : Json Str → Str
  /-- `{LA_INFERENCE_TIMEOUT_S}` -/
  inferenceTimeout : Str

/-- The exceptions `handle_connection` tells apart. Everything else that is an `Exception` is
    one case for it, and is known by its `repr`. -/
inductive Fault where
  | outOfMemory (e : Str)
  | timeout
  | valueError (e : Str)
  | runtimeError (e : Str)
  /-- Any other, by its `repr`. -/
  | other (e : Str)

/-! ## Replies -/

/-- `_frame_error`; every caller passes one of the four codes. -/
def frameError (frame_id code : Str) (message : Json Str) : Json Str :=
  .obj
    [("ok".toList, .bool false), ("type".toList, .str "error".toList),
     ("frame_id".toList, .str frame_id), ("code".toList, .str code),
     ("message".toList, message)]

def intJson (n : Int) : Json Str :=
  .num (if 0 ≤ n then .posInt n.toNat else .negInt n.natAbs)

def floatJson (x : ℚ) : Json Str := .num (.float x)

/-- `Detection.to_json` -/
def Detection.toJson (d : Detection) : Json Str :=
  .obj
    [("label".toList, .str d.label), ("bbox_norm".toList, .arr (d.bbox_norm.map intJson)),
     ("bbox_px".toList, .arr (d.bbox_px.map floatJson))]

/-- `Point.to_json` -/
def Point.toJson (p : Point) : Json Str :=
  .obj
    [("label".toList, .str p.label), ("point_norm".toList, .arr (p.point_norm.map intJson)),
     ("point_px".toList, .arr (p.point_px.map floatJson))]

def ResizePlan.toJson (r : ResizePlan) : Json Str :=
  .obj
    [("dst_w".toList, intJson r.dst_w), ("dst_h".toList, intJson r.dst_h),
     ("n_llm_tokens".toList, intJson r.n_llm_tokens), ("scale".toList, floatJson r.scale)]

def Kind.word : Kind → Str
  | .boxes => "boxes".toList
  | .points => "points".toList
  | .abstained => "abstained".toList
  | .deviation => "model_deviation".toList

/-- A request that has reached the engine. -/
structure Job where
  frame_id : Str
  prompt : Str
  mode : Str
  prompt_task : Json Str
  jpeg : Bytes

/-- The arguments of `engine.run`. -/
structure EngineCall where
  jpeg : Bytes
  prompt : Str
  mode : Str
  prompt_task : Json Str

def Job.call (job : Job) : EngineCall := ⟨job.jpeg, job.prompt, job.mode, job.prompt_task⟩

/-- What `engine.run` comes to, with the time it took under the lock. -/
abbrev EngineOutcome := Except Fault (InferenceResult × ℚ)

/-- The geometry of a result, under the name of its variant. -/
def geometry (r : InferenceResult) : List (Str × Json Str) :=
  match r.kind with
  | .boxes => [("boxes".toList, .arr (r.boxes.map Detection.toJson))]
  | .points => [("points".toList, .arr (r.points.map Point.toJson))]
  | _ => []

/-- The success body of `_infer`. -/
def successBody (job : Job) (r : InferenceResult) (total_ms : ℚ) : Json Str :=
  .obj
    ([("ok".toList, .bool true), ("type".toList, .str r.kind.word),
      ("frame_id".toList, .str job.frame_id), ("raw_text".toList, .str r.raw_answer),
      ("model_output_truncated".toList, .bool r.model_output_truncated),
      ("deviations_dropped".toList, intJson r.deviations_dropped),
      ("image_size".toList, .arr [intJson r.image_size.1, intJson r.image_size.2]),
      ("resize_plan".toList, r.resize_plan.toJson),
      ("generation_mode_used".toList, .str job.mode),
      ("latency_ms".toList, floatJson (Binary64.pyRound r.latency_ms 1)),
      ("total_ms".toList, floatJson (Binary64.pyRound total_ms 1))] ++ geometry r)

/-- `_infer`, from the engine's outcome on. -/
def inferReply (job : Job) : EngineOutcome → Except Fault (Json Str)
  | .ok (r, total_ms) =>
    if r.kind = .deviation then
      .ok (frameError job.frame_id "model_deviation".toList
        (match r.deviation_message with
          | some m => .str m
          | none => .null))
    else .ok (successBody job r total_ms)
  | .error (.valueError e) => .ok (frameError job.frame_id "invalid_image".toList (.str e))
  | .error fault => .error fault

/-- The error reply to an exception. -/
def Fault.reply (py : Python) (frame_id : Str) (fault : Fault) : Json Str :=
  frameError frame_id "internal".toList (.str (match fault with
    | outOfMemory e =>
      "CUDA out of memory: ".toList ++ e ++
      ". The worker is restarting; retry the request after ~10-15s.".toList
    | timeout =>
      "inference timeout: exceeded LA_INFERENCE_TIMEOUT_S=".toList ++ py.inferenceTimeout ++
      "s. The worker is restarting; retry the request after ~10-15s.".toList
    | valueError e | runtimeError e | other e => e))

/-- The exceptions behind which `_hard_exit_for_restart` is called. Behind a timeout the
    thread at the GPU runs on, and nothing but the end of the process stops it; behind an
    exhausted memory the next frame is to have a fresh CUDA context. -/
def Fault.exits : Fault → Bool
  | outOfMemory _ | timeout => true
  | _ => false

/-- What a request comes to: the frame written for it, if one is, and whether the process
    exits. Both are kept, because an exit can come without a reply. -/
structure Sent where
  doc : Option (Json Str)
  exits : Bool

/-- `write_frame` of an error reply; one that is too large raises once more, out of the handler. -/
def sendFault (py : Python) (frame_id : Str) (fault : Fault) : Sent where
  doc :=
    if (py.dumps (fault.reply py frame_id)).length ≤ maxFrameBytes then
      some (fault.reply py frame_id)
    else none
  exits := fault.exits

/-- `write_frame` of a reply, inside the `try` of `handle_connection`. -/
def send (py : Python) (frame_id : Str) : Except Fault (Json Str) → Sent
  | .error fault => sendFault py frame_id fault
  | .ok doc =>
    if (py.dumps doc).length ≤ maxFrameBytes then ⟨some doc, false⟩
    else
      sendFault py frame_id
        (.valueError ("outbound frame too large: ".toList ++ Py.str (py.dumps doc).length))

/-! ## Requests -/

def LoadError.message (header : Bytes) : LoadError → Str
  | unicode e =>
    "header bytes are not valid UTF-8: ".toList ++ e ++ ". First 32 bytes (hex): ".toList ++
    (header.take 32).flatMap fun b =>
      [Nat.digitChar (b.toNat / 16), Nat.digitChar (b.toNat % 16)]
  | json lineno colno pos msg =>
    "header JSON parse failed at line ".toList ++ Py.str lineno ++ ", column ".toList ++
    Py.str colno ++ " (offset ".toList ++ Py.str pos ++ "): ".toList ++ msg

/-- `type(d).__name__` -/
def typeName : Json Str → Str
  | .null => "NoneType".toList
  | .bool _ => "bool".toList
  | .num (.float _) => "float".toList
  | .num _ => "int".toList
  | .str _ => "str".toList
  | .arr _ => "list".toList
  | .obj _ => "dict".toList

/-- The diagnostics of `_infer`'s own checks. -/
inductive Refusal where
  | frameId (got : Json Str)
  | missing (key : Str)
  | prompt
  | promptTooLong (len : Nat)
  | mode (got : Json Str)
  | emptyPayload
  | notJpeg

def Refusal.code : Refusal → Str
  | emptyPayload | notJpeg => "invalid_image".toList
  | _ => "internal".toList

def Refusal.message (py : Python) : Refusal → Str
  | frameId got =>
    "header.frame_id missing or not a non-empty string (got ".toList ++ py.repr got ++
    ("). The Rust frontend always sends a frame_id; receiving a Frame without one means the " ++
     "upstream IPC contract was violated.").toList
  | missing key =>
    "header.".toList ++ key ++
    (" missing. The Rust frontend should have rejected this Frame upstream — receiving it here " ++
     "means the upstream contract was violated.").toList
  | prompt =>
    ("header.prompt must be a non-empty string (see worker/prompts.py for the seven canonical " ++
     "prompt forms — that file is the single source of truth)").toList
  | promptTooLong len =>
    "header.prompt length ".toList ++ Py.str len ++
    " chars > 16384 (the tokenizer's model_max_length cap)".toList
  | mode got =>
    "header.generation_mode=".toList ++ py.repr got ++
    (" is not one of 'fast'|'hybrid'|'slow'. There is no default — every request must declare " ++
     "a mode explicitly.").toList
  | emptyPayload =>
    ("JPEG payload is empty. The Rust frontend should have rejected this Frame; receiving it " ++
     "here means the upstream contract was violated.").toList
  | notJpeg =>
    ("JPEG payload missing SOI marker FF D8 FF — Rust frontend should have rejected this Frame; " ++
     "defense-in-depth check tripped here because /tmp/la.sock is internally reachable.").toList

abbrev Dict := List (Str × Json Str)

/-- `d[key]`, or `None`. -/
def Dict.get (key : Str) (d : Dict) : Json Str := (Json.get key d).getD .null

/-- The modes `_infer` lets through. -/
def modes : List Str := ["fast".toList, "hybrid".toList, "slow".toList]

/-- `_infer`, up to the lock: the job, or the id and the reason of the error reply. The order
    of the checks is the source's. It matters to a client that breaks two rules at once, and
    to nobody else. -/
def admission (header : Dict) (jpeg : Bytes) : Except (Str × Refusal) Job :=
  match header.get "frame_id".toList with
  | .str frame_id =>
    if frame_id = [] then .error ([], .frameId (.str frame_id))
    else
      match ["prompt".toList, "generation_mode".toList, "prompt_task".toList].find? fun key =>
          (Json.get key header).isNone with
      | some key => .error (frame_id, .missing key)
      | none =>
        match header.get "prompt".toList with
        | .str prompt =>
          if prompt = [] then .error (frame_id, .prompt)
          else if prompt.length > 16384 then .error (frame_id, .promptTooLong prompt.length)
          else
            match header.get "generation_mode".toList with
            | .str mode =>
              if mode ∉ modes then .error (frame_id, .mode (.str mode))
              else if jpeg = [] then .error (frame_id, .emptyPayload)
              else if jpeg.take 3 ≠ [0xFF, 0xD8, 0xFF] then .error (frame_id, .notJpeg)
              else
                .ok
                  { frame_id, prompt, mode, jpeg
                    prompt_task := header.get "prompt_task".toList }
            | other => .error (frame_id, .mode other)
        | _ => .error (frame_id, .prompt)
  | other => .error ([], .frameId other)

/-- What `_infer` has checked when it takes the lock. -/
theorem admission_eq_ok {header : Dict} {jpeg : Bytes} {job : Job}
    (h : admission header jpeg = .ok job) :
    job.frame_id ≠ [] ∧ job.prompt ≠ [] ∧ job.prompt.length ≤ 16384 ∧ job.mode ∈ modes ∧
      job.jpeg ≠ [] ∧ job.jpeg.take 3 = [0xFF, 0xD8, 0xFF] ∧ job.jpeg = jpeg ∧
      job.prompt_task = header.get "prompt_task".toList := by
  unfold admission at h
  split at h
  case h_2 => exact absurd h (by simp)
  rename_i frame_id hframe
  obtain ⟨hid, h⟩ := ite_error_eq_ok.mp h
  split at h
  case h_1 => exact absurd h (by simp)
  split at h
  case h_2 => exact absurd h (by simp)
  rename_i prompt hprompt
  obtain ⟨hne, h⟩ := ite_error_eq_ok.mp h
  obtain ⟨hlen, h⟩ := ite_error_eq_ok.mp h
  split at h
  case h_2 => exact absurd h (by simp)
  rename_i mode hmode
  obtain ⟨hmem, h⟩ := ite_error_eq_ok.mp h
  obtain ⟨hjpeg, h⟩ := ite_error_eq_ok.mp h
  obtain ⟨hsoi, rfl⟩ := ite_error_ok_eq_ok.mp h
  exact ⟨hid, hne, Nat.not_lt.mp hlen, not_not.mp hmem, hjpeg, not_not.mp hsoi, rfl, rfl⟩

/-- Where `handle_connection` takes a request. The cases differ in whether the engine is
    asked, and in who catches what `write_frame` raises. -/
inductive Routed where
  /-- The header is unusable; the error reply is written outside the `try`. -/
  | unusable (doc : Json Str)
  | capabilities (frame_id : Str)
  | info (frame_id : Str)
  /-- An error reply without the engine. -/
  | refused (frame_id : Str) (doc : Json Str)
  | infer (job : Job)

/-- The request, from its two frames. -/
def route (py : Python) (header payload : Bytes) : Routed :=
  match py.loads header with
  | .error e => .unusable (frameError [] "internal".toList (.str (e.message header)))
  | .ok (.obj d) =>
    let frame_id := match Dict.get "frame_id".toList d with
      | .str s => s
      | _ => []
    -- the id is echoed whatever the kind
    match Dict.get "kind".toList d with
    | .str kind =>
      if kind = "capabilities".toList then .capabilities frame_id
      else if kind = "info".toList then .info frame_id
      else if kind = "frame".toList then
        match admission d payload with
        | .ok job => .infer job
        | .error (id, r) => .refused frame_id (frameError id r.code (.str (r.message py)))
      else .refused frame_id (frameError frame_id "internal".toList
        (.str ("unknown header.kind: ".toList ++ py.repr (.str kind))))
    | kind => .refused frame_id (frameError frame_id "internal".toList
        (.str ("unknown header.kind: ".toList ++ py.repr kind)))
  -- no object, so there is no place for an id
  | .ok other =>
    .unusable (frameError [] "internal".toList
      (.str ("header JSON must be an object; got ".toList ++ typeName other)))

/-! ## Every reply to a job names its frame -/

/-- The document is an object that names the frame, once. Once, since the edge reads a
    repeated key's last copy. -/
def NamesFrame (frame_id : Str) (doc : Json Str) : Prop :=
  ∃ members, doc = .obj members ∧ (members.map Prod.fst).Nodup ∧
    ("frame_id".toList, .str frame_id) ∈ members

theorem namesFrame_frameError (frame_id code : Str) (message : Json Str) :
    NamesFrame frame_id (frameError frame_id code message) :=
  ⟨_, rfl, of_decide_eq_true rfl, by simp⟩

theorem namesFrame_successBody (job : Job) (r : InferenceResult) (total_ms : ℚ) :
    NamesFrame job.frame_id (successBody job r total_ms) := by
  refine ⟨_, rfl, ?_, by simp⟩
  cases hk : r.kind <;> simp only [geometry, hk] <;> exact of_decide_eq_true rfl

theorem namesFrame_of_sendFault {py : Python} {frame_id : Str} {fault : Fault} {doc : Json Str}
    (h : (sendFault py frame_id fault).doc = some doc) : NamesFrame frame_id doc := by
  simp only [sendFault] at h
  split at h
  · rw [← Option.some.inj h]
    exact namesFrame_frameError _ _ _
  · exact absurd h (by simp)

theorem namesFrame_of_inferReply {job : Job} {o : EngineOutcome}
    {doc : Json Str} (h : inferReply job o = .ok doc) : NamesFrame job.frame_id doc := by
  cases o with
  | ok p =>
    obtain ⟨r, total_ms⟩ := p
    simp only [inferReply] at h
    split at h
    · rw [← Except.ok.inj h]; exact namesFrame_frameError _ _ _
    · rw [← Except.ok.inj h]; exact namesFrame_successBody _ _ _
  | error fault =>
    cases fault <;> simp only [inferReply, Except.ok.injEq, reduceCtorEq] at h
    rw [← h]
    exact namesFrame_frameError _ _ _

/-- **Whatever the engine does with a job, what is written names its frame.** -/
theorem namesFrame_of_send {py : Python} {job : Job} {o : EngineOutcome}
    {doc : Json Str} (h : (send py job.frame_id (inferReply job o)).doc = some doc) :
    NamesFrame job.frame_id doc := by
  cases hr : inferReply job o with
  | error fault =>
    rw [hr] at h
    exact namesFrame_of_sendFault h
  | ok reply =>
    rw [hr] at h
    simp only [send] at h
    split at h
    · rw [← Option.some.inj h]
      exact namesFrame_of_inferReply hr
    · exact namesFrame_of_sendFault h

theorem sendFault_length {py : Python} {frame_id : Str} {fault : Fault} {doc : Json Str}
    (h : (sendFault py frame_id fault).doc = some doc) : (py.dumps doc).length ≤ maxFrameBytes := by
  simp only [sendFault] at h
  split at h
  · rename_i hlen
    rwa [← Option.some.inj h]
  · exact absurd h (by simp)

theorem send_length {py : Python} {frame_id : Str} {o : Except Fault (Json Str)} {doc : Json Str}
    (h : (send py frame_id o).doc = some doc) : (py.dumps doc).length ≤ maxFrameBytes := by
  cases o with
  | error fault => exact sendFault_length h
  | ok reply =>
    simp only [send] at h
    split at h
    · rename_i hlen
      rwa [← Option.some.inj h]
    · exact sendFault_length h

end LocateAnything.Worker
