import LocateAnything.Worker.Run

/-!
# Who is told to be at fault

The docstring of `_infer` states a law: what is wrong with the image bytes is `invalid_image`,
what is wrong with the header, or goes wrong behind the image, is `internal`. The code is all
that a client's program has to tell its own faults from the server's.

The code keeps the law by one `except ValueError` around the whole of `run`, and `run` raises
`ValueError` for more than images: for a `prompt_task` it does not know, for a pointing prompt
it cannot read back, for whatever the processor or the model objects to, and for a coordinate
of more than 4300 digits. `attributed_iff` says when the law is kept all the same.

## How the condition is found

The law (`Attributed`) is about the reply, the condition (`Kept`) about the header, the
payload and what the engine's parts raise. Between them stands the order in which things are
looked at: fields, payload, task, image, engine, answer. So the equivalence is proved place by
place. For each there is one lemma `attributed_iff_of_…`, under the hypothesis that the
request has come so far and no further, and both sides are computed there: a refusal by
`_infer`, an unknown task, a broken decoder, a rejected image, an engine that breaks, an
answer that is read or is not. The theorem then only follows the request.

A header that is wrong in a way `_infer` does not look at (a task that does not exist, or one
the prompt does not belong to) has one way left to keep the law: that something breaks, by
another exception, before it shows (`Breaks`).
-/

set_option autoImplicit false

namespace LocateAnything.Worker

open Framing (Bytes)

/-- Which exceptions the handler's `except ValueError` takes. -/
def Fault.isValueError : Fault → Bool
  | valueError _ => true
  | _ => false

/-- The same of `run` as a whole. All of its own checks raise `ValueError`; what is excepted
    are the two about the rendered prompt, and the ones PIL raises for the machine's sake. -/
def RunError.isValueError : RunError → Bool
  | server _ | renderedPrefix _ | renderedSuffix _ => false
  | engine f => f.isValueError
  | _ => true

theorem isValueError_toFault (py : Python) (e : RunError) :
    (e.toFault py).isValueError = e.isValueError := by
  cases e with
  | server f => cases f <;> rfl
  | _ => rfl

/-! ## The law -/

/-- The code of a reply, if it is an error. -/
def codeOf : Json Str → Option Str
  | .obj members =>
    match Json.get "code".toList members with
    | some (.str c) => some c
    | _ => none
  | _ => none

def invalidImage : Str := "invalid_image".toList

def internal : Str := "internal".toList

/-- The fields `_infer` looks at, up to the task. Of the task it asks only that it is there.
    -/
structure HeaderFields (header : Dict) (frame_id prompt mode : Str) : Prop where
  get_frame_id : header.get "frame_id".toList = .str frame_id
  frame_id_ne : frame_id ≠ []
  get_prompt : header.get "prompt".toList = .str prompt
  prompt_ne : prompt ≠ []
  prompt_le : prompt.length ≤ 16384
  get_mode : header.get "generation_mode".toList = .str mode
  mode_mem : mode ∈ modes
  prompt_task : Json.get "prompt_task".toList header ≠ none

/-- The prompt is one of its task, and its label can be read off. -/
def Belongs (prompt : Str) (task : TemplateKind) : Prop :=
  classifyPrompt prompt = .ok task ∧ ∃ label, pointLabel prompt task = .ok label

/-- What a header with these fields asks of the engine. -/
def callOf (header : Dict) (jpeg : Bytes) (prompt mode : Str) : EngineCall :=
  ⟨jpeg, prompt, mode, header.get "prompt_task".toList⟩

@[simp] theorem callOf_jpeg (header : Dict) (jpeg : Bytes) (prompt mode : Str) :
    (callOf header jpeg prompt mode).jpeg = jpeg := rfl

@[simp] theorem callOf_prompt (header : Dict) (jpeg : Bytes) (prompt mode : Str) :
    (callOf header jpeg prompt mode).prompt = prompt := rfl

@[simp] theorem callOf_prompt_task (header : Dict) (jpeg : Bytes) (prompt mode : Str) :
    (callOf header jpeg prompt mode).prompt_task = header.get "prompt_task".toList := rfl

/-- Every field is there, well typed and canonical, and the prompt belongs to the task. It is
    what the edge sends, and more than `_infer` checks. -/
def HeaderOk (header : Dict) : Prop :=
  ∃ frame_id prompt mode task, HeaderFields header frame_id prompt mode ∧
    canonicalTask (header.get "prompt_task".toList) = some task ∧ Belongs prompt task

/-- A payload that starts like a JPEG. -/
def JpegMarked (jpeg : Bytes) : Prop := jpeg ≠ [] ∧ jpeg.take 3 = [0xFF, 0xD8, 0xFF]

/-- The dimensions pass the gates and have a plan. -/
def SizeOk (size : Nat × Nat) : Prop :=
  dimensionGates size.1 size.2 = .ok () ∧ ∃ plan, planResize .float size.1 size.2 = .ok plan

section Law
variable {Image Inputs : Type} (py : Python) (eng : Engine Image Inputs)

/-- The payload decodes to an image of a size that is accepted. -/
def ImageOk (jpeg : Bytes) (image : Image) : Prop :=
  decodeImage eng.toPil jpeg = .ok image ∧ SizeOk (eng.size image)

/-- The payload itself is at fault: it is empty, has no SOI, or is rejected by the decoding, the
    colour handling or the gates. -/
def PayloadFault (jpeg : Bytes) : Prop :=
  ¬ JpegMarked jpeg ∨ (∃ type_name e, decodeImage eng.toPil jpeg = .error (.decode type_name e)) ∨
    ∃ image, decodeImage eng.toPil jpeg = .ok image ∧ ¬ SizeOk (eng.size image)

/-- `run` fails behind the accepted image. -/
def LateFailure (header : Dict) (jpeg : Bytes) : Prop :=
  ∃ job image task plan e, admission header jpeg = .ok job ∧
    accept eng job.call = .ok (image, task, plan) ∧
    respond eng job.call image task plan = .error e

/-- **The law**: the client is blamed for its image only, and everything else is `internal`.
    An image that is at fault may still be answered otherwise, if something else is wrong as
    well. -/
structure Attributed (header : Dict) (jpeg : Bytes) (total_ms : Option ℚ) : Prop where
  payload_only : codeOf (frameReply py eng header jpeg total_ms) = some invalidImage →
    PayloadFault eng jpeg
  header_internal : ¬ HeaderOk header →
    codeOf (frameReply py eng header jpeg total_ms) = some internal
  late_internal : LateFailure eng header jpeg →
    codeOf (frameReply py eng header jpeg total_ms) = some internal

/-! ## Where it is kept -/

/-- Every numeral has at most 4300 digits. -/
def Short (numerals : List Str) : Prop := ∀ s ∈ numerals, s.length ≤ maxStrDigits

/-- Behind the image nothing raises a `ValueError`: not the engine, and not `int`. -/
def Orderly (call : EngineCall) (image : Image) (task : TemplateKind) : Prop :=
  match generateAnswer eng call image with
  | .error e => e.isValueError = false
  | .ok (answer, _) => Short (boxNumerals answer) ∧
      ∀ label, pointLabel call.prompt task = .ok label → Short (pointNumerals answer label)

/-- The engine breaks first, and not by a `ValueError`. -/
def Breaks (call : EngineCall) : Prop :=
  (∃ task, canonicalTask call.prompt_task = some task) ∧
  ((∃ f, decodeImage eng.toPil call.jpeg = .error (.server f)) ∨
    ∃ image e, ImageOk eng call.jpeg image ∧ generateAnswer eng call image = .error e ∧
      e.isValueError = false)

/-- The condition of the law. A header with fields that `_infer` itself refuses is no concern.
    Any other is in order, and then so is what happens behind the image; or it is not, and
    then the request never comes to where that would show. A timeout is such a case, since it
    is `internal` whatever the header. -/
def Kept (header : Dict) (jpeg : Bytes) (total_ms : Option ℚ) : Prop :=
  ∀ frame_id prompt mode, HeaderFields header frame_id prompt mode →
    (HeaderOk header ∧ (JpegMarked jpeg → total_ms ≠ none →
      ∀ image task, ImageOk eng jpeg image →
        canonicalTask (header.get "prompt_task".toList) = some task →
        Orderly eng (callOf header jpeg prompt mode) image task)) ∨
    (¬ HeaderOk header ∧ JpegMarked jpeg ∧ (total_ms = none ∨
      Breaks eng (callOf header jpeg prompt mode)))

end Law

/-! ## `_infer`'s own checks -/

/-- The fields are values of the header, so the condition's `∀` is over one case at most. -/
theorem HeaderFields.unique {header : Dict} {frame_id prompt mode frame_id' prompt' mode' : Str}
    (h : HeaderFields header frame_id prompt mode)
    (h' : HeaderFields header frame_id' prompt' mode') :
    frame_id = frame_id' ∧ prompt = prompt' ∧ mode = mode' :=
  ⟨Json.str.inj (h.get_frame_id.symm.trans h'.get_frame_id),
    Json.str.inj (h.get_prompt.symm.trans h'.get_prompt),
    Json.str.inj (h.get_mode.symm.trans h'.get_mode)⟩

theorem get_ne_none {header : Dict} {key s : Str} (h : header.get key = .str s) :
    (Json.get key header).isNone = false := by
  unfold Dict.get at h
  cases hg : Json.get key header with
  | none => rw [hg] at h; exact absurd h (by simp)
  | some d => rfl

/-- Behind the fields only the payload is looked at. -/
theorem admission_of_fields {header : Dict} {frame_id prompt mode : Str}
    (h : HeaderFields header frame_id prompt mode) (jpeg : Bytes) :
    admission header jpeg =
      if jpeg = [] then .error (frame_id, .emptyPayload)
      else if jpeg.take 3 ≠ [0xFF, 0xD8, 0xFF] then .error (frame_id, .notJpeg)
      else .ok
        { frame_id, prompt, mode, jpeg, prompt_task := header.get "prompt_task".toList } := by
  have htask : (Json.get "prompt_task".toList header).isNone = false := by
    cases hg : Json.get "prompt_task".toList header with
    | none => exact absurd hg h.prompt_task
    | some d => rfl
  have hfind : (["prompt".toList, "generation_mode".toList, "prompt_task".toList].find? fun key =>
      (Json.get key header).isNone) = none := by
    simp only [List.find?_cons, List.find?_nil, get_ne_none h.get_prompt, get_ne_none h.get_mode,
      htask]
  unfold admission
  simp only [h.get_frame_id, if_neg h.frame_id_ne, hfind, h.get_prompt, if_neg h.prompt_ne,
    if_neg (Nat.not_lt.mpr h.prompt_le), h.get_mode, h.mode_mem, not_true_eq_false, if_false]

/-- Without them the refusal is `internal`. -/
theorem admission_of_not_fields {header : Dict}
    (h : ∀ frame_id prompt mode, ¬ HeaderFields header frame_id prompt mode) (jpeg : Bytes) :
    ∃ frame_id r, admission header jpeg = .error (frame_id, r) ∧ r.code = internal := by
  unfold admission
  split
  case h_2 => exact ⟨_, _, rfl, rfl⟩
  rename_i frame_id hframe
  split
  · exact ⟨_, _, rfl, rfl⟩
  rename_i hid
  split
  · exact ⟨_, _, rfl, rfl⟩
  rename_i hkeys
  split
  case h_2 => exact ⟨_, _, rfl, rfl⟩
  rename_i prompt hprompt
  split
  · exact ⟨_, _, rfl, rfl⟩
  rename_i hne
  split
  · exact ⟨_, _, rfl, rfl⟩
  rename_i hle
  split
  case h_2 => exact ⟨_, _, rfl, rfl⟩
  rename_i mode hmode
  split
  · exact ⟨_, _, rfl, rfl⟩
  rename_i hmem
  refine absurd ⟨hframe, hid, hprompt, hne, Nat.not_lt.mp hle, hmode, not_not.mp hmem, ?_⟩
    (h frame_id prompt mode)
  have := List.find?_eq_none.mp hkeys "prompt_task".toList (by simp)
  intro hnone
  rw [hnone] at this
  exact this rfl

theorem isValueError_of_dimensionGates {w h : Nat} {e : RunError}
    (hgates : dimensionGates w h = .error e) : e.isValueError = true := by
  unfold dimensionGates at hgates
  dsimp only at hgates
  split at hgates
  · cases hgates; rfl
  split at hgates
  · cases hgates; rfl
  · exact absurd hgates (by simp)

/-- Why no image is accepted, for a prompt and a payload that are there. -/
theorem accept_eq_error {Image Inputs : Type} {eng : Engine Image Inputs} {call : EngineCall}
    {e : RunError} (hprompt : call.prompt ≠ []) (hjpeg : call.jpeg ≠ [])
    (h : accept eng call = .error e) :
    (canonicalTask call.prompt_task = none ∧ e = .promptTask call.prompt_task) ∨
    (∃ task, canonicalTask call.prompt_task = some task) ∧
      ((∃ f, decodeImage eng.toPil call.jpeg = .error (.server f) ∧ e = .server f) ∨
        e.isValueError = true ∧
          ((∃ type_name x, decodeImage eng.toPil call.jpeg = .error (.decode type_name x)) ∨
            ∃ image, decodeImage eng.toPil call.jpeg = .ok image ∧ ¬ SizeOk (eng.size image))) := by
  unfold accept at h
  rw [if_neg hprompt] at h
  cases htask : canonicalTask call.prompt_task with
  | none =>
    rw [htask] at h
    exact .inl ⟨rfl, (Except.error.inj h).symm⟩
  | some task =>
    rw [htask] at h
    dsimp only at h
    rw [if_neg hjpeg] at h
    refine .inr ⟨⟨task, rfl⟩, ?_⟩
    split at h
    · rename_i type_name x hdecode
      cases h
      exact .inr ⟨rfl, .inl ⟨_, _, hdecode⟩⟩
    · rename_i f hdecode
      cases h
      exact .inl ⟨f, hdecode, rfl⟩
    · rename_i image hdecode
      split at h
      · rename_i e' hgates
        cases h
        refine .inr ⟨isValueError_of_dimensionGates hgates,
          .inr ⟨image, hdecode, fun ⟨hs, _⟩ => ?_⟩⟩
        rw [hgates] at hs
        exact absurd hs (by simp)
      · split at h
        · rename_i e' hplan
          cases h
          refine .inr ⟨rfl, .inr ⟨image, hdecode, fun ⟨_, plan, hs⟩ => ?_⟩⟩
          rw [hplan] at hs
          exact absurd hs (by simp)
        · exact absurd h (by simp)

/-! ## Codes -/

theorem codeOf_frameError (frame_id code : Str) (message : Json Str) :
    codeOf (frameError frame_id code message) = some code := rfl

/-- A body has no member of that name. -/
theorem codeOf_successBody (job : Job) (r : InferenceResult) (total_ms : ℚ) :
    codeOf (successBody job r total_ms) = none := by
  unfold codeOf successBody geometry
  cases r.kind <;> rfl

theorem invalidImage_ne_internal : invalidImage ≠ internal := by decide

/-! ## The numerals -/

theorem overlong_eq_none_iff {numerals : List Str} : overlong numerals = none ↔ Short numerals := by
  unfold overlong Short
  rw [List.find?_eq_none]
  simp only [decide_eq_true_eq, Nat.not_lt]

/-- The answer is read if the numerals are short and the label is there. -/
theorem readAnswer_ok_iff {f : Frame} {prompt answer : Str} {task : TemplateKind} :
    (∃ r, readAnswer f prompt task answer = .ok r) ↔ Short (boxNumerals answer) ∧
      ∃ label, pointLabel prompt task = .ok label ∧ Short (pointNumerals answer label) := by
  constructor
  · rintro ⟨r, h⟩
    unfold readAnswer at h
    split at h
    · exact absurd h (by simp)
    rename_i hboxes
    split at h
    · exact absurd h (by simp)
    rename_i label hlabel
    split at h
    · exact absurd h (by simp)
    rename_i hpoints
    exact ⟨overlong_eq_none_iff.mp hboxes, label, hlabel, overlong_eq_none_iff.mp hpoints⟩
  · rintro ⟨hboxes, label, hlabel, hpoints⟩
    refine ⟨mapAnswer f task label answer, ?_⟩
    unfold readAnswer
    rw [overlong_eq_none_iff.mpr hboxes]
    dsimp only
    rw [hlabel]
    dsimp only
    rw [overlong_eq_none_iff.mpr hpoints]

theorem isValueError_of_readAnswer {f : Frame} {prompt answer : Str} {task : TemplateKind}
    {e : RunError} (h : readAnswer f prompt task answer = .error e) : e.isValueError = true := by
  unfold readAnswer at h
  split at h
  · cases h; rfl
  split at h
  · cases h; rfl
  split at h
  · cases h; rfl
  · exact absurd h (by simp)

section Reply
variable {Image Inputs : Type} {py : Python} {eng : Engine Image Inputs} {header : Dict}
  {jpeg : Bytes} {job : Job}

theorem frameReply_of_refused {frame_id : Str} {r : Refusal}
    (hadm : admission header jpeg = .error (frame_id, r)) (total_ms : Option ℚ) :
    codeOf (frameReply py eng header jpeg total_ms) = some r.code := by
  unfold frameReply infer
  rw [hadm]
  rfl

theorem frameReply_of_timeout (hadm : admission header jpeg = .ok job) :
    codeOf (frameReply py eng header jpeg none) = some internal := by
  unfold frameReply infer
  rw [hadm]
  rfl

/-- **A `ValueError` of `run` blames the image, whatever raised it.** -/
theorem frameReply_of_error {e : RunError} (hadm : admission header jpeg = .ok job)
    (hrun : eng.run job.call = .error e) (ms : ℚ) :
    codeOf (frameReply py eng header jpeg (some ms)) =
      some (if e.isValueError = true then invalidImage else internal) := by
  have hkind := isValueError_toFault py e
  unfold frameReply infer
  rw [hadm]
  dsimp only
  rw [hrun, ← hkind]
  simp only [outcomeOf]
  cases e.toFault py <;> rfl

theorem frameReply_of_ok {r : InferenceResult} (hadm : admission header jpeg = .ok job)
    (hrun : eng.run job.call = .ok r) (ms : ℚ) :
    codeOf (frameReply py eng header jpeg (some ms)) ≠ some invalidImage ∧
    codeOf (frameReply py eng header jpeg (some ms)) ≠ some internal := by
  have hreply : codeOf (frameReply py eng header jpeg (some ms)) =
      if r.kind = .deviation then some "model_deviation".toList else none := by
    unfold frameReply infer
    rw [hadm]
    dsimp only
    rw [hrun]
    simp only [outcomeOf, inferReply]
    by_cases hkind : r.kind = .deviation
    · rw [if_pos hkind, if_pos hkind]
      exact codeOf_frameError _ _ _
    · rw [if_neg hkind, if_neg hkind]
      exact codeOf_successBody job r ms
  rw [hreply]
  split
  · exact ⟨by decide, by decide⟩
  · exact ⟨by simp, by simp⟩

/-! ## The law, by code -/

theorem attributed_of_internal {total_ms : Option ℚ}
    (hcode : codeOf (frameReply py eng header jpeg total_ms) = some internal) :
    Attributed py eng header jpeg total_ms where
  payload_only h := by
    rw [hcode] at h
    exact absurd (Option.some.inj h).symm invalidImage_ne_internal
  header_internal _ := hcode
  late_internal _ := hcode

theorem ne_internal_of_invalidImage {total_ms : Option ℚ}
    (hcode : codeOf (frameReply py eng header jpeg total_ms) = some invalidImage) :
    codeOf (frameReply py eng header jpeg total_ms) ≠ some internal := by
  rw [hcode]
  intro h
  exact invalidImage_ne_internal (Option.some.inj h)

/-- A client that is blamed for a good image. -/
theorem not_attributed {total_ms : Option ℚ}
    (hcode : codeOf (frameReply py eng header jpeg total_ms) = some invalidImage)
    (hfault : ¬ PayloadFault eng jpeg) : ¬ Attributed py eng header jpeg total_ms :=
  fun h => hfault (h.payload_only hcode)

/-- A reply that is not `internal` keeps the law if it does not blame the image wrongly, there is no
    late failure, and the header is in order. -/
theorem attributed_iff_headerOk {total_ms : Option ℚ}
    (hcode : codeOf (frameReply py eng header jpeg total_ms) ≠ some internal)
    (hpayload : codeOf (frameReply py eng header jpeg total_ms) = some invalidImage →
      PayloadFault eng jpeg)
    (hlate : ¬ LateFailure eng header jpeg) :
    Attributed py eng header jpeg total_ms ↔ HeaderOk header := by
  constructor
  · intro h
    by_contra hbad
    exact hcode (h.header_internal hbad)
  · intro hok
    exact ⟨hpayload, fun hbad => absurd hok hbad, fun h => absurd h hlate⟩

/-! ## The request, step by step -/

/-- What `run` comes to for a header whose fields and payload have passed `_infer`. -/
theorem kept_iff {frame_id prompt mode : Str} {ms : ℚ}
    (hf : HeaderFields header frame_id prompt mode) (hproper : JpegMarked jpeg) :
    Kept eng header jpeg (some ms) ↔
      (HeaderOk header ∧ ∀ image task, ImageOk eng jpeg image →
        canonicalTask (header.get "prompt_task".toList) = some task →
        Orderly eng (callOf header jpeg prompt mode) image task) ∨
      (¬ HeaderOk header ∧ Breaks eng (callOf header jpeg prompt mode)) := by
  constructor
  · intro hkept
    rcases hkept frame_id prompt mode hf with ⟨hok, horderly⟩ | ⟨hbad, -, hbreaks⟩
    · exact .inl ⟨hok, horderly hproper (by simp)⟩
    · exact .inr ⟨hbad, hbreaks.resolve_left (by simp)⟩
  · intro h frame_id' prompt' mode' hf'
    obtain ⟨-, rfl, rfl⟩ := hf.unique hf'
    rcases h with ⟨hok, horderly⟩ | ⟨hbad, hbreaks⟩
    · exact .inl ⟨hok, fun _ _ => horderly⟩
    · exact .inr ⟨hbad, hproper, .inr hbreaks⟩

/-- Nothing is late where the request is refused, … -/
theorem not_lateFailure_of_refused {frame_id : Str} {r : Refusal}
    (hadm : admission header jpeg = .error (frame_id, r)) : ¬ LateFailure eng header jpeg := by
  rintro ⟨job', _, _, _, _, hadm', -⟩
  rw [hadm] at hadm'
  exact absurd hadm' (by simp)

/-- … or no image is accepted, … -/
theorem not_lateFailure_of_rejected {e : RunError} (hadm : admission header jpeg = .ok job)
    (haccept : accept eng job.call = .error e) : ¬ LateFailure eng header jpeg := by
  rintro ⟨job', image, task, plan, e', hadm', haccept', -⟩
  rw [hadm] at hadm'
  cases hadm'
  rw [haccept] at haccept'
  exact absurd haccept' (by simp)

/-- … or `run` comes to an answer. -/
theorem not_lateFailure_of_ok {r : InferenceResult} (hadm : admission header jpeg = .ok job)
    (hrun : eng.run job.call = .ok r) : ¬ LateFailure eng header jpeg := by
  rintro ⟨job', image, task, plan, e, hadm', haccept, hrespond⟩
  rw [hadm] at hadm'
  cases hadm'
  unfold Engine.run at hrun
  rw [haccept] at hrun
  dsimp only at hrun
  rw [hrespond] at hrun
  exact absurd hrun (by simp)

/-- The payload is refused by `_infer`, which has not looked at the task yet. -/
theorem attributed_iff_of_payload {frame_id prompt mode : Str} {total_ms : Option ℚ}
    (hf : HeaderFields header frame_id prompt mode) (hno : ¬ JpegMarked jpeg) :
    Attributed py eng header jpeg total_ms ↔ Kept eng header jpeg total_ms := by
  have hrefused : ∃ r, admission header jpeg = .error (frame_id, r) ∧ r.code = invalidImage := by
    have hadm := admission_of_fields hf jpeg
    by_cases hempty : jpeg = []
    · rw [if_pos hempty] at hadm
      exact ⟨_, hadm, rfl⟩
    · rw [if_neg hempty, if_pos fun hsoi => hno ⟨hempty, hsoi⟩] at hadm
      exact ⟨_, hadm, rfl⟩
  obtain ⟨r, hadm, hr⟩ := hrefused
  have hcode : codeOf (frameReply py eng header jpeg total_ms) = some invalidImage := by
    rw [frameReply_of_refused hadm, hr]
  rw [attributed_iff_headerOk (ne_internal_of_invalidImage hcode) (fun _ => .inl hno)
    (not_lateFailure_of_refused hadm)]
  constructor
  · intro hok _ _ _ _
    exact .inl ⟨hok, fun h => absurd h hno⟩
  · intro hkept
    rcases hkept frame_id prompt mode hf with ⟨hok, -⟩ | ⟨-, h, -⟩
    · exact hok
    · exact absurd h hno

/-- A task that does not exist blames the image: the law is broken, and the condition fails. -/
theorem attributed_iff_of_unknown_task {frame_id prompt mode : Str} {ms : ℚ} {e : RunError}
    (hf : HeaderFields header frame_id prompt mode) (hproper : JpegMarked jpeg)
    (hadm : admission header jpeg = .ok job) (hrun : eng.run job.call = .error e)
    (hvalue : e.isValueError = true)
    (hno : canonicalTask (header.get "prompt_task".toList) = none) :
    Attributed py eng header jpeg (some ms) ↔ Kept eng header jpeg (some ms) := by
  have hcode : codeOf (frameReply py eng header jpeg (some ms)) = some invalidImage := by
    rw [frameReply_of_error hadm hrun, if_pos hvalue]
  have hbad : ¬ HeaderOk header := by
    rintro ⟨_, _, _, task, _, htask, -⟩
    exact absurd (hno.symm.trans htask) (by simp)
  apply iff_of_false
  · intro h
    exact ne_internal_of_invalidImage hcode (h.header_internal hbad)
  · intro h
    rcases (kept_iff hf hproper).mp h with ⟨hok, -⟩ | ⟨-, ⟨task, htask⟩, -⟩
    · exact hbad hok
    · rw [callOf_prompt_task] at htask
      exact absurd (hno.symm.trans htask) (by simp)

/-- PIL breaks by something else than a `ValueError`: the law is kept, whatever the header. -/
theorem attributed_iff_of_server_error {frame_id prompt mode : Str} {ms : ℚ}
    {task : TemplateKind} {f : ServerFault}
    (hf : HeaderFields header frame_id prompt mode) (hproper : JpegMarked jpeg)
    (hadm : admission header jpeg = .ok job) (hrun : eng.run job.call = .error (.server f))
    (htask : canonicalTask (header.get "prompt_task".toList) = some task)
    (hserver : decodeImage eng.toPil jpeg = .error (.server f)) :
    Attributed py eng header jpeg (some ms) ↔ Kept eng header jpeg (some ms) := by
  have hcode : codeOf (frameReply py eng header jpeg (some ms)) = some internal :=
    frameReply_of_error hadm hrun ms
  apply iff_of_true
  · exact attributed_of_internal hcode
  · apply (kept_iff hf hproper).mpr
    by_cases hok : HeaderOk header
    · refine .inl ⟨hok, fun image _ hi => ?_⟩
      exact absurd (hserver.symm.trans hi.1) (by simp)
    · exact .inr ⟨hok, ⟨task, htask⟩, .inl ⟨f, hserver⟩⟩

/-- The image is rejected: the law is kept if the header is in order, and the condition says so
    too. -/
theorem attributed_iff_of_rejected {frame_id prompt mode : Str} {ms : ℚ} {e : RunError}
    (hf : HeaderFields header frame_id prompt mode) (hproper : JpegMarked jpeg)
    (hadm : admission header jpeg = .ok job)
    (haccept : accept eng job.call = .error e) (hvalue : e.isValueError = true)
    (hfault : (∃ type_name x, decodeImage eng.toPil jpeg = .error (.decode type_name x)) ∨
      ∃ image, decodeImage eng.toPil jpeg = .ok image ∧ ¬ SizeOk (eng.size image)) :
    Attributed py eng header jpeg (some ms) ↔ Kept eng header jpeg (some ms) := by
  have hrun : eng.run job.call = .error e := by
    unfold Engine.run
    rw [haccept]
  have hcode : codeOf (frameReply py eng header jpeg (some ms)) = some invalidImage := by
    rw [frameReply_of_error hadm hrun, if_pos hvalue]
  rw [attributed_iff_headerOk (ne_internal_of_invalidImage hcode) (fun _ => .inr hfault)
    (not_lateFailure_of_rejected hadm haccept), kept_iff hf hproper]
  have himage : ∀ image, ¬ ImageOk eng jpeg image := by
    rintro image ⟨hdecode, hsize⟩
    rcases hfault with ⟨_, _, hno⟩ | ⟨image', hdecode', hsize'⟩
    · exact absurd (hdecode.symm.trans hno) (by simp)
    · obtain rfl := Except.ok.inj (hdecode.symm.trans hdecode')
      exact hsize' hsize
  have hserver : ∀ f, decodeImage eng.toPil jpeg ≠ .error (.server f) := by
    intro f hserver
    rcases hfault with ⟨_, _, hno⟩ | ⟨_, hdecode, -⟩
    · exact absurd (hserver.symm.trans hno) (by simp)
    · exact absurd (hserver.symm.trans hdecode) (by simp)
  constructor
  · intro hok
    exact .inl ⟨hok, fun image _ hi => absurd hi (himage image)⟩
  · rintro (⟨hok, -⟩ | ⟨-, -, ⟨f, hs⟩ | ⟨image, _, hi, -⟩⟩)
    · exact hok
    · exact absurd hs (hserver f)
    · exact absurd hi (himage image)

/-- An image has been accepted: it is the only one, and the payload is not at fault. -/
theorem not_payloadFault {image : Image} (hproper : JpegMarked jpeg)
    (himage : ImageOk eng jpeg image) : ¬ PayloadFault eng jpeg := by
  rintro (hno | ⟨_, _, hno⟩ | ⟨image', hdecode, hno⟩)
  · exact hno hproper
  · rw [himage.1] at hno
    exact absurd hno (by simp)
  · obtain rfl := Except.ok.inj (hdecode.symm.trans himage.1)
    exact hno himage.2

theorem kept_iff_of_accepted {frame_id prompt mode : Str} {ms : ℚ} {image : Image}
    {task : TemplateKind} (hf : HeaderFields header frame_id prompt mode)
    (hproper : JpegMarked jpeg) (himage : ImageOk eng jpeg image)
    (htask : canonicalTask (header.get "prompt_task".toList) = some task) :
    Kept eng header jpeg (some ms) ↔
      (HeaderOk header ∧ Orderly eng (callOf header jpeg prompt mode) image task) ∨
      (¬ HeaderOk header ∧ ∃ e,
        generateAnswer eng (callOf header jpeg prompt mode) image = .error e ∧
        e.isValueError = false) := by
  have hunique : ∀ image', ImageOk eng jpeg image' → image' = image :=
    fun image' hi => Except.ok.inj (hi.1.symm.trans himage.1)
  rw [kept_iff hf hproper]
  apply or_congr
  · apply and_congr_right
    intro _
    constructor
    · intro h
      exact h image task himage htask
    · intro h image' task' hi ht
      rw [hunique image' hi, ← Option.some.inj (htask.symm.trans ht)]
      exact h
  · apply and_congr_right
    intro _
    constructor
    · rintro ⟨-, ⟨f, hserver⟩ | ⟨image', e, hi, he, hno⟩⟩
      · rw [callOf_jpeg, himage.1] at hserver
        exact absurd hserver (by simp)
      · rw [hunique image' hi] at he
        exact ⟨e, he, hno⟩
    · rintro ⟨e, he, hno⟩
      exact ⟨⟨task, htask⟩, .inr ⟨image, e, himage, he, hno⟩⟩

/-- The engine breaks behind the accepted image: what counts is whether by a `ValueError`. -/
theorem attributed_iff_of_engine_error {frame_id prompt mode : Str} {ms : ℚ} {image : Image}
    {task : TemplateKind} {e : RunError} (hf : HeaderFields header frame_id prompt mode)
    (hproper : JpegMarked jpeg) (himage : ImageOk eng jpeg image)
    (htask : canonicalTask (header.get "prompt_task".toList) = some task)
    (hadm : admission header jpeg = .ok job) (hrun : eng.run job.call = .error e)
    (hgen : generateAnswer eng (callOf header jpeg prompt mode) image = .error e) :
    Attributed py eng header jpeg (some ms) ↔ Kept eng header jpeg (some ms) := by
  have hcode : codeOf (frameReply py eng header jpeg (some ms)) = _ :=
    frameReply_of_error hadm hrun ms
  rw [kept_iff_of_accepted hf hproper himage htask]
  unfold Orderly
  rw [hgen]
  cases hvalue : e.isValueError with
  | true =>
    rw [hvalue, if_pos rfl] at hcode
    apply iff_of_false
    · exact not_attributed hcode (not_payloadFault hproper himage)
    · rintro (⟨-, hno⟩ | ⟨-, e', he', hno⟩)
      · exact absurd hno (by simp [hvalue])
      · rw [← Except.error.inj he', hvalue] at hno
        exact absurd hno (by simp)
  | false =>
    rw [hvalue, if_neg (by simp)] at hcode
    apply iff_of_true
    · exact attributed_of_internal hcode
    · by_cases hok : HeaderOk header
      · exact .inl ⟨hok, hvalue⟩
      · exact .inr ⟨hok, e, rfl, hvalue⟩

/-- The answer cannot be read: the image is blamed, so the law is broken. -/
theorem attributed_iff_of_unread {frame_id prompt mode answer : Str} {ms latency_ms : ℚ}
    {image : Image} {task : TemplateKind} {f : Frame} {e : RunError}
    (hf : HeaderFields header frame_id prompt mode) (hproper : JpegMarked jpeg)
    (himage : ImageOk eng jpeg image)
    (htask : canonicalTask (header.get "prompt_task".toList) = some task)
    (hadm : admission header jpeg = .ok job) (hrun : eng.run job.call = .error e)
    (hgen : generateAnswer eng (callOf header jpeg prompt mode) image = .ok (answer, latency_ms))
    (hread : readAnswer f prompt task answer = .error e) :
    Attributed py eng header jpeg (some ms) ↔ Kept eng header jpeg (some ms) := by
  have hcode : codeOf (frameReply py eng header jpeg (some ms)) = some invalidImage := by
    rw [frameReply_of_error hadm hrun, if_pos (isValueError_of_readAnswer hread)]
  rw [kept_iff_of_accepted hf hproper himage htask]
  unfold Orderly
  rw [hgen]
  apply iff_of_false
  · exact not_attributed hcode (not_payloadFault hproper himage)
  · rintro (⟨⟨frame_id', prompt', mode', task', hf', htask', hbelongs⟩, hboxes, hpoints⟩ |
      ⟨-, e', he', -⟩)
    · -- the label of a prompt that belongs to its task is there, so only `int` could object
      obtain ⟨-, rfl, -⟩ := hf.unique hf'
      obtain rfl := Option.some.inj (htask.symm.trans htask')
      obtain ⟨-, label, hlabel⟩ := hbelongs
      obtain ⟨r, hr⟩ := readAnswer_ok_iff.mpr ⟨hboxes, label, hlabel, hpoints label hlabel⟩
      exact absurd (hread.symm.trans hr) (by simp)
    · exact absurd he' (by simp)

/-- The answer has been read: only the header can still be wrong. -/
theorem attributed_iff_of_read {frame_id prompt mode answer : Str} {ms latency_ms : ℚ}
    {image : Image} {task : TemplateKind} {f : Frame} {r : InferenceResult}
    (hf : HeaderFields header frame_id prompt mode) (hproper : JpegMarked jpeg)
    (himage : ImageOk eng jpeg image)
    (htask : canonicalTask (header.get "prompt_task".toList) = some task)
    (hadm : admission header jpeg = .ok job) (hrun : eng.run job.call = .ok r)
    (hgen : generateAnswer eng (callOf header jpeg prompt mode) image = .ok (answer, latency_ms))
    (hread : readAnswer f prompt task answer = .ok r) :
    Attributed py eng header jpeg (some ms) ↔ Kept eng header jpeg (some ms) := by
  obtain ⟨hinvalid, hinternal⟩ := @frameReply_of_ok _ _ py eng _ _ _ _ hadm hrun ms
  obtain ⟨hboxes, label, hlabel, hpoints⟩ := readAnswer_ok_iff.mp ⟨r, hread⟩
  rw [attributed_iff_headerOk hinternal (fun h => absurd h hinvalid)
    (not_lateFailure_of_ok hadm hrun), kept_iff_of_accepted hf hproper himage htask]
  unfold Orderly
  rw [hgen]
  constructor
  · intro hok
    refine .inl ⟨hok, hboxes, fun label' hlabel' => ?_⟩
    rw [← Except.ok.inj (hlabel.symm.trans hlabel')]
    exact hpoints
  · rintro (⟨hok, -⟩ | ⟨-, e, he, -⟩)
    · exact hok
    · exact absurd he (by simp)

/-- An image has been accepted: what counts is how the rest of `run` ends. -/
theorem attributed_iff_of_accepted {frame_id prompt mode : Str} {ms : ℚ} {image : Image}
    {task : TemplateKind} {plan : ImageResize}
    (hf : HeaderFields header frame_id prompt mode) (hproper : JpegMarked jpeg)
    (hadm : admission header jpeg = .ok job)
    (hcall : job.call = callOf header jpeg prompt mode)
    (haccept : accept eng job.call = .ok (image, task, plan)) :
    Attributed py eng header jpeg (some ms) ↔ Kept eng header jpeg (some ms) := by
  have hrun : eng.run job.call = respond eng job.call image task plan := by
    unfold Engine.run
    rw [haccept]
  rw [hcall] at haccept
  obtain ⟨-, htask, -, hdecode, hgates, hplan⟩ := accept_eq_ok_iff.mp haccept
  have himage : ImageOk eng jpeg image := ⟨hdecode, hgates, plan, hplan⟩
  unfold respond at hrun
  rw [hcall] at hrun
  cases hgen : generateAnswer eng (callOf header jpeg prompt mode) image with
  | error e =>
    rw [hgen, ← hcall] at hrun
    exact attributed_iff_of_engine_error hf hproper himage htask hadm hrun hgen
  | ok out =>
    obtain ⟨answer, latency_ms⟩ := out
    rw [hgen] at hrun
    dsimp only at hrun
    rw [callOf_prompt] at hrun
    cases hread : readAnswer (frameOf eng.toPil image plan latency_ms) prompt task answer with
    | error e =>
      rw [hread, ← hcall] at hrun
      exact attributed_iff_of_unread hf hproper himage htask hadm hrun hgen hread
    | ok r =>
      rw [hread, ← hcall] at hrun
      exact attributed_iff_of_read hf hproper himage htask hadm hrun hgen hread

end Reply

/-- **When the law of the error codes is kept**: for every header and payload, every engine and
    answer, exactly if the header is one that `_infer` refuses; or is in order, and neither the
    engine raises a `ValueError` behind the image nor has the answer a numeral that is too long; or
    is not in order, and the engine breaks before that shows. -/
theorem attributed_iff {Image Inputs : Type} (py : Python) (eng : Engine Image Inputs)
    (header : Dict) (jpeg : Bytes) (total_ms : Option ℚ) :
    Attributed py eng header jpeg total_ms ↔ Kept eng header jpeg total_ms := by
  by_cases hfields : ∃ frame_id prompt mode, HeaderFields header frame_id prompt mode
  case neg =>
    obtain ⟨id, r, hrefused, hr⟩ := admission_of_not_fields
      (fun a b c h => hfields ⟨a, b, c, h⟩) jpeg
    have hcode : codeOf (frameReply py eng header jpeg total_ms) = some internal := by
      rw [frameReply_of_refused hrefused, hr]
    exact iff_of_true (attributed_of_internal hcode) fun a b c h => absurd ⟨a, b, c, h⟩ hfields
  obtain ⟨frame_id, prompt, mode, hf⟩ := hfields
  by_cases hproper : JpegMarked jpeg
  case neg => exact attributed_iff_of_payload hf hproper
  have hadm := admission_of_fields hf jpeg
  rw [if_neg hproper.1, if_neg (not_not.mpr hproper.2)] at hadm
  cases total_ms with
  | none =>
    apply iff_of_true
    · exact attributed_of_internal (frameReply_of_timeout hadm)
    · intro frame_id' prompt' mode' hf'
      by_cases hok : HeaderOk header
      · exact .inl ⟨hok, fun _ hno => absurd rfl hno⟩
      · exact .inr ⟨hok, hproper, .inl rfl⟩
  | some ms =>
    cases haccept : accept eng (callOf header jpeg prompt mode) with
    | ok p =>
      obtain ⟨image, task, plan⟩ := p
      exact attributed_iff_of_accepted hf hproper hadm rfl haccept
    | error e =>
      have hrun : eng.run (callOf header jpeg prompt mode) = .error e := by
        unfold Engine.run
        rw [haccept]
      rcases accept_eq_error hf.prompt_ne hproper.1 haccept with
        ⟨hno, rfl⟩ | ⟨⟨task, htask⟩, ⟨f, hserver, rfl⟩ | ⟨hvalue, hfault⟩⟩
      · exact attributed_iff_of_unknown_task hf hproper hadm hrun rfl hno
      · exact attributed_iff_of_server_error hf hproper hadm hrun htask hserver
      · exact attributed_iff_of_rejected hf hproper hadm haccept hvalue hfault

/-- A good image under a task that does not exist: the client is told that its image is invalid. -/
theorem unknown_task_blames_image :
    let eng := sampleEngine (640, 480) "<box>None</box><|im_end|>".toList
    let jpeg : Bytes := [0xFF, 0xD8, 0xFF, 0xE0]
    codeOf (frameReply plainPython eng (sampleHeader "bogus".toList) jpeg (some 300)) =
      some invalidImage ∧
    ¬ PayloadFault eng jpeg ∧
    ¬ Attributed plainPython eng (sampleHeader "bogus".toList) jpeg (some 300) := by
  intro eng jpeg
  have hproper : JpegMarked jpeg := ⟨by decide, rfl⟩
  have hplan : ∃ plan, planResize .float 640 480 = .ok plan :=
    ⟨_, planResize_of_fits .float (by decide) (by decide) (by decide) (by decide) (by decide)⟩
  have hgates : dimensionGates 640 480 = .ok () :=
    dimensionGates_eq_ok_iff.mpr ⟨by decide, by decide, by decide⟩
  have himage : ImageOk eng jpeg () := ⟨rfl, hgates, hplan⟩
  have hcode : codeOf (frameReply plainPython eng (sampleHeader "bogus".toList) jpeg (some 300)) =
      some invalidImage := rfl
  have hfault := not_payloadFault hproper himage
  exact ⟨hcode, hfault, not_attributed hcode hfault⟩

end LocateAnything.Worker
