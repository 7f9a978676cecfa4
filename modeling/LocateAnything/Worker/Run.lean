import LocateAnything.Worker.Connection
import LocateAnything.Worker.PixelTokenMath

/-!
# `LocateAnythingInference.run`, from the payload to the result

`run` in two halves. `accept` takes the payload: the argument checks, the decoding by PIL with
the colour handling, the dimension gates and the resize plan. `respond` takes the image: the
chat template, the processor, the generation, and the reading of the answer up to `mapAnswer`.
The cut is where the client's data ends. What goes wrong in the first half can be the client's
doing, what goes wrong in the second cannot.

What PIL, the processor and the model do enters as an `Engine`, call by call. Each call may
come to any outcome its Python counterpart may: an image, or one of the exceptions that the
source tells apart at that place. Nothing relates the calls to each other.

Every place that raises has a constructor of `RunError`, and the exception it is comes later
(`RunError.toFault`): what a caller can tell apart is less than what has happened.
-/

set_option autoImplicit false

namespace LocateAnything.Worker

open Checks
open Framing (Bytes)

/-! ## What is raised -/

/-- The exceptions `run` neither catches nor raises itself. They are not about the image, so
    they pass through. -/
inductive ServerFault where
  | outOfMemory (e : Str)
  | runtimeError (e : Str)
  /-- Any other than a `ValueError`, by its `repr`. -/
  | other (e : Str)

def ServerFault.toFault : ServerFault → Fault
  | outOfMemory e => .outOfMemory e
  | runtimeError e => .runtimeError e
  | other e => .other e

/-- What a call of PIL raises: something the source takes for the image's fault, or something
    else. -/
inductive PilFault where
  /-- One of `_PIL_DECODE_EXCEPTIONS`, `ValueError` among them. -/
  | decode (type_name e : Str)
  | server (f : ServerFault)

/-- What a call of `ImageCms` raises. -/
inductive IccFault where
  /-- `ValueError`, `OSError` or `PyCMSError`. -/
  | colour (type_name e : Str)
  | pil (f : PilFault)

/-- The raises of `run`, in the order of the source. -/
inductive RunError where
  | emptyPrompt
  | promptTask (got : Json Str)
  | emptyJpeg
  | decode (type_name e : Str)
  | server (f : ServerFault)
  | patches (w h : Nat)
  | positions (w h target_w target_h : Nat)
  | plan (e : PlanError)
  | renderedPrefix (text : Str)
  | renderedSuffix (text : Str)
  | mode (got : Str)
  /-- Raised by the chat template, the processor or the model. -/
  | engine (f : Fault)
  /-- `int` on too many digits. -/
  | digits (n : Nat)
  | prompt (e : PromptError)

/-! ## The engine -/

/-- PIL, on images of its own. -/
structure Pil (Image : Type) where
  openImage : Bytes → Except PilFault Image
  mode : Image → Str
  exifTranspose : Image → Except PilFault Image
  /-- `raw.info.get("icc_profile")`, or `b""`. -/
  iccProfile : Image → Bytes
  /-- `"srgb" in getProfileDescription(ImageCmsProfile(icc)).strip().lower()` -/
  describesSrgb : Bytes → Except IccFault Bool
  profileToProfile : Image → Bytes → Except IccFault Image
  convertRgb : Image → Except PilFault Image
  size : Image → Nat × Nat

/-- What `run` calls: PIL on an image of some type, the processor, and the model. -/
structure Engine (Image Inputs : Type) extends Pil Image where
  /-- `py_apply_chat_template` on the image and the prompt. -/
  applyChatTemplate : Image → Str → Except Fault Str
  /-- The processor, with the checks of what it returns. -/
  process : Image → Str → Except Fault Inputs
  /-- `model.generate`: the answer and `latency_ms`. -/
  generate : Inputs → Str → Except Fault (Str × ℚ)

/-! ## The payload -/

section Accept
variable {Image Inputs : Type}

def IccFault.reraised : IccFault → PilFault
  | colour type_name e =>
    .decode "ValueError".toList
      ("ICC profile present but could not be converted to sRGB: ".toList ++ type_name ++
       ": ".toList ++ e ++
       (". Strip or correct the profile client-side before sending — the model is trained on " ++
        "sRGB-assumed inputs and a wrong-tagged profile causes a silent colour shift.").toList)
  | pil f => f

/-- The ICC block of `run`. An image without a profile, and one whose profile is sRGB already,
    is left as it is. -/
def convertProfile (pil : Pil Image) (raw : Image) : Except PilFault Image :=
  let icc := pil.iccProfile raw
  if icc = [] then .ok raw
  else
    match pil.describesSrgb icc with
    | .error f => .error f.reraised
    | .ok true => .ok raw
    | .ok false =>
      match pil.profileToProfile raw icc with
      | .error f => .error f.reraised
      | .ok raw => .ok raw

/-- The body of the `try` around PIL. Its order matters: the size is that of the image once it
    has been turned. -/
def decodeImage (pil : Pil Image) (jpeg : Bytes) : Except PilFault Image :=
  match pil.openImage jpeg with
  | .error f => .error f
  | .ok raw =>
    if pil.mode raw = "CMYK".toList then
      .error (.decode "ValueError".toList
        ("CMYK JPEG rejected — the model consumes RGB only and PIL's CMYK→RGB is not ICC-aware. " ++
         "Convert to RGB client-side before sending.").toList)
    else
      match pil.exifTranspose raw with
      | .error f => .error f
      | .ok raw =>
        match convertProfile pil raw with
        | .error f => .error f
        | .ok raw => pil.convertRgb raw

/-- `PATCH_PX`, `GRID_PX`, `IN_TOKEN_LIMIT`, `POS_EMB_CAP` of `run` -/
def patchPx : Nat := 14
def gridPx : Nat := 28
def inTokenBudget : Nat := 25600
def posEmbCap : Nat := 512

/-- The two gates on the dimensions, on the number of patches and on the sides of the grid. -/
def dimensionGates (w h : Nat) : Except RunError Unit :=
  if w / patchPx * (h / patchPx) > inTokenBudget then .error (.patches w h)
  else
    let target_w := (w + gridPx - 1) / gridPx * gridPx
    let target_h := (h + gridPx - 1) / gridPx * gridPx
    if target_w / patchPx ≥ posEmbCap ∨ target_h / patchPx ≥ posEmbCap then
      .error (.positions w h target_w target_h)
    else .ok ()

/-- A `prompt_task` that is a key of `EXPECTED_SHAPE`. -/
def canonicalTask : Json Str → Option TemplateKind
  | .str s => TemplateKind.ofWireName? s
  | _ => none

/-- `run`, up to the resize plan. -/
def accept (eng : Engine Image Inputs) (call : EngineCall) :
    Except RunError (Image × TemplateKind × ImageResize) :=
  if call.prompt = [] then .error .emptyPrompt
  else
    match canonicalTask call.prompt_task with
    | none => .error (.promptTask call.prompt_task)
    | some task =>
      if call.jpeg = [] then .error .emptyJpeg
      else
        match decodeImage eng.toPil call.jpeg with
        | .error (.decode type_name e) => .error (.decode type_name e)
        | .error (.server f) => .error (.server f)
        | .ok image =>
          match dimensionGates (eng.size image).1 (eng.size image).2 with
          | .error e => .error e
          | .ok () =>
            match planResize .float (eng.size image).1 (eng.size image).2 with
            | .error e => .error (.plan e)
            | .ok plan => .ok (image, task, plan)

end Accept

/-! ## The answer -/

/-- `sys.get_int_max_str_digits()` -/
def maxStrDigits : Nat := 4300

/-- What `parse_boxes` calls `int` on, in its order. CPython refuses numerals of more than
    4300 digits, which the parsers of `Parsing` do not model; this list is where the refusal
    is. -/
def boxNumerals (answer : Str) : List Str :=
  (refRunRe.finditer answer).flatMap fun m =>
    if runLabel m = [] then []
    else (boxRe.finditer (m.group boxesGroup)).flatMap fun bm =>
      [bm.group 1, bm.group 2, bm.group 3, bm.group 4]

/-- What `parse_points` calls `int` on, in its order. -/
def pointNumerals (answer : Str) (pointLabel : Option Str) : List Str :=
  ((refRunRe.finditer answer).flatMap fun m =>
    if runLabel m = [] then []
    else (pointsInRun (boxRe.finditer answer) m).flatMap fun pm => [pm.group 1, pm.group 2]) ++
  match truthy pointLabel with
  | some _ => (barePoints answer).flatMap fun pm => [pm.group 1, pm.group 2]
  | none => []

/-- The first numeral `int` refuses. -/
def overlong (numerals : List Str) : Option Str := numerals.find? fun s => maxStrDigits < s.length

/-- `point_label` -/
def pointLabel (prompt : Str) : TemplateKind → Except PromptError (Option Str)
  | .point => (pointPhrase prompt).map some
  | _ => .ok none

/-- `run`, from the answer on, with the limit of `int`: the boxes are read in front of the
    label, and the points behind it. -/
def readAnswer (f : Frame) (prompt : Str) (task : TemplateKind) (answer : Str) :
    Except RunError InferenceResult :=
  match overlong (boxNumerals answer) with
  | some s => .error (.digits s.length)
  | none =>
    match pointLabel prompt task with
    | .error e => .error (.prompt e)
    | .ok label =>
      match overlong (pointNumerals answer label) with
      | some s => .error (.digits s.length)
      | none => .ok (mapAnswer f task label answer)

/-- `CANONICAL_RENDERED_PREFIX` -/
def renderedPrefix : Str :=
  ("<|im_start|>system\n" ++ "You are a helpful assistant.\n" ++ "<|im_end|>\n" ++
   "<|im_start|>user\n").toList

/-- `CANONICAL_RENDERED_SUFFIX` -/
def renderedSuffix : Str := ("<|im_end|>\n" ++ "<|im_start|>assistant\n").toList

section Respond
variable {Image Inputs : Type}

/-- What `run` knows about an image. -/
def frameOf (pil : Pil Image) (image : Image) (plan : ImageResize) (latency_ms : ℚ) : Frame where
  width := (pil.size image).1
  height := (pil.size image).2
  plan :=
    { dst_w := plan.dst_w, dst_h := plan.dst_h, n_llm_tokens := plan.n_llm_tokens
      scale := plan.scale }
  latency_ms := latency_ms

/-- `run`, from the chat template to the answer. The rendered text is checked for the bookends
    the model was trained with. -/
def generateAnswer (eng : Engine Image Inputs) (call : EngineCall) (image : Image) :
    Except RunError (Str × ℚ) :=
  match eng.applyChatTemplate image call.prompt with
  | .error f => .error (.engine f)
  | .ok text =>
    if ¬ renderedPrefix <+: text then .error (.renderedPrefix text)
    else if ¬ renderedSuffix <:+ text then .error (.renderedSuffix text)
    else
      match eng.process image text with
      | .error f => .error (.engine f)
      | .ok inputs =>
        -- `gen_cfg.to_kwargs`
        if call.mode ∉ modes then .error (.mode call.mode)
        else
          match eng.generate inputs call.mode with
          | .error f => .error (.engine f)
          | .ok out => .ok out

/-- `run`, from the resize plan on. -/
def respond (eng : Engine Image Inputs) (call : EngineCall) (image : Image) (task : TemplateKind)
    (plan : ImageResize) : Except RunError InferenceResult :=
  match generateAnswer eng call image with
  | .error e => .error e
  | .ok (answer, latency_ms) =>
    readAnswer (frameOf eng.toPil image plan latency_ms) call.prompt task answer

/-- `run` -/
def Engine.run (eng : Engine Image Inputs) (call : EngineCall) : Except RunError InferenceResult :=
  match accept eng call with
  | .error e => .error e
  | .ok (image, task, plan) => respond eng call image task plan

end Respond

/-! ## What has been passed -/

theorem dimensionGates_eq_ok_iff {w h : Nat} : dimensionGates w h = .ok () ↔
    w / 14 * (h / 14) ≤ 25600 ∧ gridCeil w / 14 < 512 ∧ gridCeil h / 14 < 512 := by
  have hpatches : w / patchPx * (h / patchPx) > inTokenBudget ↔ ¬ w / 14 * (h / 14) ≤ 25600 :=
    Nat.not_le.symm
  have hpositions : ((w + gridPx - 1) / gridPx * gridPx / patchPx ≥ posEmbCap ∨
      (h + gridPx - 1) / gridPx * gridPx / patchPx ≥ posEmbCap) ↔
      ¬ (gridCeil w / 14 < 512 ∧ gridCeil h / 14 < 512) := by
    rw [not_and_or, Nat.not_lt, Nat.not_lt]
    rfl
  unfold dimensionGates
  dsimp only
  rw [ite_error_eq_ok, ite_error_ok_eq_ok, hpatches, hpositions, not_not, not_not,
    and_iff_left (rfl : () = ())]

section Passed
variable {Image Inputs : Type} {eng : Engine Image Inputs} {call : EngineCall}

/-- **What `run` checks before it takes an image.** The checks are independent of their order
    here. -/
theorem accept_eq_ok_iff {image : Image} {task : TemplateKind} {plan : ImageResize} :
    accept eng call = .ok (image, task, plan) ↔
      call.prompt ≠ [] ∧ canonicalTask call.prompt_task = some task ∧ call.jpeg ≠ [] ∧
      decodeImage eng.toPil call.jpeg = .ok image ∧
      dimensionGates (eng.size image).1 (eng.size image).2 = .ok () ∧
      planResize .float (eng.size image).1 (eng.size image).2 = .ok plan := by
  constructor
  · intro h
    unfold accept at h
    obtain ⟨hprompt, h⟩ := ite_error_eq_ok.mp h
    split at h
    · exact absurd h (by simp)
    rename_i task' htask
    obtain ⟨hjpeg, h⟩ := ite_error_eq_ok.mp h
    split at h
    · exact absurd h (by simp)
    · exact absurd h (by simp)
    rename_i image' hdecode
    split at h
    · exact absurd h (by simp)
    rename_i hgates
    split at h
    · exact absurd h (by simp)
    rename_i plan' hplan
    simp only [Except.ok.injEq, Prod.mk.injEq] at h
    obtain ⟨rfl, rfl, rfl⟩ := h
    exact ⟨hprompt, htask, hjpeg, hdecode, hgates, hplan⟩
  · rintro ⟨hprompt, htask, hjpeg, hdecode, hgates, hplan⟩
    unfold accept
    simp only [if_neg hprompt, htask, if_neg hjpeg, hdecode, hgates, hplan]

theorem readAnswer_eq_ok {f : Frame} {prompt answer : Str} {task : TemplateKind}
    {r : InferenceResult} (h : readAnswer f prompt task answer = .ok r) :
    ∃ label, pointLabel prompt task = .ok label ∧ r = mapAnswer f task label answer := by
  unfold readAnswer at h
  split at h
  · exact absurd h (by simp)
  split at h
  · exact absurd h (by simp)
  rename_i label hlabel
  split at h
  · exact absurd h (by simp)
  exact ⟨label, hlabel, (Except.ok.inj h).symm⟩

theorem generateAnswer_eq_ok {image : Image} {answer : Str} {latency_ms : ℚ}
    (h : generateAnswer eng call image = .ok (answer, latency_ms)) :
    call.mode ∈ modes ∧ ∃ inputs, eng.generate inputs call.mode = .ok (answer, latency_ms) := by
  unfold generateAnswer at h
  split at h
  · exact absurd h (by simp)
  split at h
  · exact absurd h (by simp)
  split at h
  · exact absurd h (by simp)
  split at h
  · exact absurd h (by simp)
  rename_i inputs _
  obtain ⟨hmode, h⟩ := ite_error_eq_ok.mp h
  split at h
  · exact absurd h (by simp)
  rename_i out hgenerate
  obtain rfl := Except.ok.inj h
  exact ⟨not_not.mp hmode, inputs, hgenerate⟩

theorem respond_eq_ok {image : Image} {task : TemplateKind} {plan : ImageResize}
    {r : InferenceResult} (h : respond eng call image task plan = .ok r) :
    ∃ answer latency_ms label, generateAnswer eng call image = .ok (answer, latency_ms) ∧
      r = mapAnswer (frameOf eng.toPil image plan latency_ms) task label answer := by
  unfold respond at h
  split at h
  · exact absurd h (by simp)
  rename_i answer latency_ms hgenerate
  obtain ⟨label, -, rfl⟩ := readAnswer_eq_ok h
  exact ⟨answer, latency_ms, label, hgenerate, rfl⟩

/-- **A result is `mapAnswer` of an answer, for an image that has passed.** -/
theorem Engine.run_eq_ok {r : InferenceResult} (h : eng.run call = .ok r) :
    ∃ image task plan inputs answer latency_ms label,
      accept eng call = .ok (image, task, plan) ∧ call.mode ∈ modes ∧
      eng.generate inputs call.mode = .ok (answer, latency_ms) ∧
      r = mapAnswer (frameOf eng.toPil image plan latency_ms) task label answer := by
  unfold Engine.run at h
  split at h
  · exact absurd h (by simp)
  rename_i image task plan haccept
  obtain ⟨answer, latency_ms, label, hanswer, hr⟩ := respond_eq_ok h
  obtain ⟨hmode, inputs, hgenerate⟩ := generateAnswer_eq_ok hanswer
  exact ⟨image, task, plan, inputs, answer, latency_ms, label, haccept, hmode, hgenerate, hr⟩

end Passed

/-! ## The exceptions -/

def PlanError.message : PlanError → Str
  | notPositive width height =>
    "image dims must be positive, got (".toList ++ Py.str width ++ ", ".toList ++ Py.str height ++
    ")".toList
  | tooManyPatches width height n_patches_w n_patches_h =>
    "image ".toList ++ Py.str width ++ "x".toList ++ Py.str height ++ " → grid ".toList ++
    Py.str n_patches_w ++ "x".toList ++ Py.str n_patches_h ++
    " exceeds MAX_PATCHES_PER_SIDE=".toList ++ Py.str maxPatchesPerSide ++ " after resize".toList

/-- `CANONICAL_REFERENCE_URL` -/
def canonicalReferenceUrl : Str :=
  "https://github.com/BigBIueWhale/locate_anything_setup/blob/main/worker/prompts.py".toList

def PromptError.message (py : Python) : PromptError → Str
  | notCanonicalPoint prompt =>
    "point_phrase requires a canonical point prompt beginning with ".toList ++
    py.repr (.str templates.point_prefix) ++ " (see ".toList ++ canonicalReferenceUrl ++
    "); got ".toList ++ py.repr (.str prompt)
  | emptyPhraseSlot prompt =>
    "point prompt ".toList ++ py.repr (.str prompt) ++
    " has an empty phrase slot once the ".toList ++ py.repr (.str templates.point_prefix) ++
    " prefix and trailing period are removed".toList
  | noTemplate prompt =>
    "prompt does not match any of the seven canonical LocateAnything-3B template prefixes (see ".toList
      ++ canonicalReferenceUrl ++ "): ".toList ++ py.repr (.str prompt)

/-- The exception a raise of `run` is. -/
def RunError.toFault (py : Python) : RunError → Fault
  | emptyPrompt => .valueError
      (("prompt must be a non-empty string. See worker/prompts.py (the single source of truth for " ++
       "the seven canonical LocateAnything-3B prompt templates) for the canonical forms.").toList)
  | promptTask got => .valueError
      ("prompt_task=".toList ++ py.repr got ++
      (" is not one of the canonical wire names ['detection', 'gui_box', 'phrase_multi', " ++
       "'phrase_single', 'point', 'scene_text', 'text_grounding']. The Rust frontend should " ++
       "classify every accepted prompt into one of these values via " ++
       "prompt_validator::TemplateKind::wire_name and forward it through the IPC header — " ++
       "receiving an unknown value here means the upstream contract was violated.").toList)
  | emptyJpeg => .valueError "jpeg_bytes must be non-empty bytes".toList
  | decode type_name e => .valueError
      ("JPEG decode failed: ".toList ++ type_name ++ ": ".toList ++ e ++
      (". The Rust frontend already validated the SOI marker and parsed the header; if we got " ++
       "here PIL refused the data — check that the encoder is producing baseline JPEG with mode " ++
       "L or RGB.").toList)
  | patches w h => .valueError
      ("image dimensions ".toList ++ Py.str w ++ "x".toList ++ Py.str h ++ " produce ".toList ++
      Py.str (w / patchPx * (h / patchPx)) ++
      (" ViT patches ((W // 14) × (H // 14)), exceeding the trained `in_token_limit = 25600`. The " ++
       "model's preprocessor would internally downscale (BICUBIC) to fit — the canonical " ++
       "training-correct path is for the client to send within budget. Reduce dimensions so " ++
       "(W // 14) × (H // 14) ≤ 25600.").toList)
  | positions w h target_w target_h => .valueError
      ("image dimensions ".toList ++ Py.str w ++ "x".toList ++ Py.str h ++ " resize to ".toList ++
      Py.str target_w ++ "x".toList ++ Py.str target_h ++ " on the 28-px grid = a ".toList ++
      Py.str (target_w / patchPx) ++ "×".toList ++ Py.str (target_h / patchPx) ++
      (" ViT patch grid, exceeding MoonViT's positional-embedding cap of 512 patches per side. " ++
       "Reduce each dimension so ceil(dim/28)*2 < 512.").toList)
  | plan e => .valueError (e.message)
  | renderedPrefix text => .runtimeError
      (("Rendered chat-template text does NOT start with the NVIDIA-trained system-message " ++
       "bookend. The processor's py_apply_chat_template has silently swapped templates (most " ++
       "plausibly to the Qwen-default 'You are Qwen, created by Alibaba Cloud. ...'). Refusing to " ++
       "run inference off-distribution. Expected first ").toList ++
      Py.str Worker.renderedPrefix.length ++ " chars: ".toList ++
      py.repr (.str Worker.renderedPrefix) ++ ". Got first ".toList ++
      Py.str Worker.renderedPrefix.length ++ " chars: ".toList ++
      py.repr (.str (text.take Worker.renderedPrefix.length)) ++ ".".toList)
  | renderedSuffix text => .runtimeError
      (("Rendered chat-template text does NOT end with the assistant-turn invitation that " ++
       "add_generation_prompt=True is supposed to append. The processor's behavior has diverged " ++
       "from what NVIDIA's SFT trainer used. Refusing to run inference off-distribution. " ++
       "Expected last ").toList ++
      Py.str Worker.renderedSuffix.length ++ " chars: ".toList ++
      py.repr (.str Worker.renderedSuffix) ++ ". Got last ".toList ++
      Py.str Worker.renderedSuffix.length ++ " chars: ".toList ++
      py.repr (.str (text.rtake Worker.renderedSuffix.length)) ++ ".".toList)
  | mode got => .valueError
      ("generation_mode=".toList ++ py.repr (.str got) ++
      (" is not one of 'fast'|'hybrid'|'slow'. Every request must declare a generation_mode " ++
       "explicitly — the server applies no default. See " ++
       "docs/MODEL_CAPABILITIES.md#generation-modes.").toList)
  | digits n => .valueError
      ("Exceeds the limit (".toList ++ Py.str maxStrDigits ++
      " digits) for integer string conversion: value has ".toList ++ Py.str n ++
      " digits; use sys.set_int_max_str_digits() to increase the limit".toList)
  | prompt e => .valueError (e.message py)
  | server f => f.toFault
  | engine f => f

/-- What `asyncio.wait_for` makes of the call; it has expired, or taken `total_ms`. -/
def outcomeOf (py : Python) (result : Except RunError InferenceResult) :
    (total_ms : Option ℚ) → EngineOutcome
  | none => .error .timeout
  | some total_ms =>
    match result with
    | .ok r => .ok (r, total_ms)
    | .error e => .error (e.toFault py)

/-! ## A request of kind `frame` -/

section Request
variable {Image Inputs : Type} (py : Python) (eng : Engine Image Inputs)

/-- `_infer` -/
def infer (header : Dict) (jpeg : Bytes) (total_ms : Option ℚ) : Except Fault (Json Str) :=
  match admission header jpeg with
  | .error (frame_id, r) => .ok (frameError frame_id r.code (.str (r.message py)))
  | .ok job => inferReply job (outcomeOf py (eng.run job.call) total_ms)

/-- `req_frame_id` -/
def requestId (header : Dict) : Str :=
  match header.get "frame_id".toList with
  | .str s => s
  | _ => []

/-- What `handle_connection` hands to `write_frame`. -/
def frameReply (header : Dict) (jpeg : Bytes) (total_ms : Option ℚ) : Json Str :=
  match infer py eng header jpeg total_ms with
  | .ok doc => doc
  | .error fault => fault.reply py (requestId header)

end Request

/-! ## A sample engine -/

/-- An engine that opens every payload as an image of this size, and has the same answer to
    everything. -/
def sampleEngine (size : Nat × Nat) (answer : Str) : Engine Unit Unit where
  openImage _ := .ok ()
  mode _ := "RGB".toList
  exifTranspose image := .ok image
  iccProfile _ := []
  describesSrgb _ := .ok true
  profileToProfile image _ := .ok image
  convertRgb image := .ok image
  size _ := size
  applyChatTemplate _ prompt := .ok (renderedPrefix ++ prompt ++ renderedSuffix)
  process _ _ := .ok ()
  generate _ _ := .ok (answer, 250)

/-- A Python that matters to no reply. -/
def plainPython : Python where
  loads := fun _ => .error (.unicode [])
  dumps := fun _ => []
  repr := fun _ => []
  inferenceTimeout := "600.0".toList

/-- The header of a pointing request, under this `prompt_task`. -/
def sampleHeader (prompt_task : Str) : Dict :=
  [("kind".toList, .str "frame".toList), ("frame_id".toList, .str "f-1".toList),
   ("prompt".toList, .str "Point to: dog.".toList), ("prompt_task".toList, .str prompt_task),
   ("generation_mode".toList, .str "fast".toList), ("jpeg_len".toList, .num (.posInt 4))]

end LocateAnything.Worker
