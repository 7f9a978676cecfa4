import LocateAnything.Lib.Checks
import LocateAnything.Template

/-!
# `prompt_validator.rs`

The builder of the seven trained prompts: `compile` validates the slots of a typed request and
assembles the prompt. Nothing is normalised on the way; a slot is accepted as it stands or the
request is rejected with a message. The model knows seven sentences, and the builder is there
so that it is never shown an eighth.

`T` is the table of template texts (the crate's own is `templates`) and `nfc` the normaliser
the crate imports. The table is a parameter, though the crate has only one, because what is
proved of prompts should not depend on the wording but on what the wording has to be like for
it.

What the checks amount to is `SlotOk`, and `compile` accepts exactly the requests whose slots
are all `SlotOk` (`compile_eq_ok_iff`). The code's order of checks decides which message a
client gets; no theorem about accepted prompts needs it, so behind this file requests are
`Accepted` and prompts are `render`ed, and the loop over the categories is not met again.
-/

set_option autoImplicit false

namespace LocateAnything.Edge

open Checks

/-! ## The request (`protocol.rs`) -/

/-- `PromptRequest`, with its one-field structs inlined. -/
inductive PromptRequest where
  | detection (categories : List Str)
  | phraseSingle (phrase : Str)
  | phraseMulti (phrase : Str)
  | textGrounding (text : Str)
  | sceneText
  | guiBox (description : Str)
  | point (phrase : Str)
  deriving DecidableEq

/-- `MAX_PROMPT_CHARS` -/
def maxPromptChars : Nat := 16384

/-! ## Constants -/

/-- Where every message sends its reader. -/
def canonicalReferenceUrl : Str :=
  "https://github.com/BigBIueWhale/locate_anything_setup/blob/main/worker/prompts.py".toList

/-- The string entries of `canonical_templates_json`. -/
def templates : Templates where
  category_separator := "</c>".toList
  detection_prefix := "Locate all the instances that matches the following description: ".toList
  single_phrase_prefix :=
    "Locate a single instance that matches the following description: ".toList
  multi_phrase_prefix := "Locate all the instances that match the following description: ".toList
  text_grounding_prefix := "Please locate the text referred as ".toList
  scene_text_exact := "Detect all the text in box format.".toList
  gui_box_prefix := "Locate the region that matches the following description: ".toList
  point_prefix := "Point to: ".toList

/-- `MAX_SLOT_CHARS` -/
def maxSlotChars : Nat := 200

/-- `MAX_DETECTION_CATEGORIES` -/
def maxDetectionCategories : Nat := 10

/-! ## Messages -/

/-- An error is its message: the code under which it is reported is the caller's to choose. -/
structure SlotError where
  message : Str
  deriving DecidableEq

/-- `TemplateKind::display_name` -/
def displayName : TemplateKind → Str
  | .detection => "closed-class detection".toList
  | .phraseSingle => "phrase grounding (single instance)".toList
  | .phraseMulti => "phrase grounding (multiple instances)".toList
  | .textGrounding => "text grounding".toList
  | .sceneText => "scene-text detection".toList
  | .guiBox => "GUI grounding (box output)".toList
  | .point => "pointing / GUI grounding (point output)".toList

/-- `TemplateKind::canonical_form` -/
def canonicalForm (T : Templates) : TemplateKind → Str
  | .detection =>
    "Locate all the instances that matches the following description: [CATS].".toList
  | .phraseSingle =>
    "Locate a single instance that matches the following description: [PHRASE].".toList
  | .phraseMulti =>
    "Locate all the instances that match the following description: [PHRASE].".toList
  | .textGrounding => "Please locate the text referred as [PHRASE].".toList
  | .sceneText => T.scene_text_exact
  | .guiBox => "Locate the region that matches the following description: [PHRASE].".toList
  | .point => "Point to: [PHRASE].".toList

/-- `build_error`; every caller names a template. The client's author is shown what the
    sentence has to look like, beside what is wrong with it. -/
def buildError (T : Templates) (detail : Str) (template : TemplateKind) : SlotError where
  message := detail ++ ". Template: ".toList ++ displayName template ++ " — `".toList ++
    canonicalForm T template ++ "`".toList ++
    ". The seven allowed templates are defined verbatim in ".toList ++ canonicalReferenceUrl ++
    " — that file is the single source of truth.".toList

/-- `{n}` of an unsigned integer. -/
def display (n : Nat) : Str := Nat.toDigits 10 n

/-- `{:04X}` -/
def hex4 (n : Nat) : Str :=
  let ds := (Nat.toDigits 16 n).map Char.toUpper
  List.replicate (4 - ds.length) '0' ++ ds

/-- The advice behind `contains ','`. -/
def commaAdvice : TemplateKind → Str
  | .detection =>
    ("detection categories are joined by the server from the `categories` list (no commas, no " ++
     "'</c>' inside a name); if you really meant one category that contains a comma, that is " ++
     "off-distribution — pick a comma-free name.").toList
  | .point =>
    ("NVIDIA's pointing eval calls `Point to: <single>.` once per category and merges " ++
     "client-side; send one Frame per category and merge on the client. The phrase must be a " ++
     "SINGLE category or referring expression.").toList
  | _ => "remove the comma.".toList

/-- What `validate_slot` finds wrong with a slot: the faults in the order in which they are
    looked for. -/
inductive SlotFault where
  | empty
  | tooLong (chars : Nat)
  | padded (leading trailing : Nat)
  | control (c : Char)
  | notNfc
  | separator
  | period
  | comma

/-- The diagnostic, behind the template's name and the field's. -/
def SlotFault.text (template : TemplateKind) : SlotFault → Str
  | empty => " is empty; a non-empty value is required".toList
  | tooLong chars =>
    " length ".toList ++ display chars ++ " chars exceeds the ".toList ++ display maxSlotChars ++
    "-char per-slot cap".toList
  | padded leading trailing =>
    " has surrounding whitespace (".toList ++ display leading ++ " leading byte(s), ".toList ++
    display trailing ++
    (" trailing byte(s)); slots carry no padding. Trim before sending — the server will not " ++
     "strip it for you.").toList
  | control c =>
    " contains a control character (U+".toList ++ hex4 c.toNat ++
    "); control characters are not allowed in a prompt slot".toList
  | notNfc =>
    (" is not in Unicode Normalization Form Canonical Composition (NFC); please retype the " ++
     "input. The server rejects non-NFC text rather than silently normalizing it (silent " ++
     "normalization would be more lenient than the model's tokenizer).").toList
  | separator =>
    (" contains the literal '</c>'. That is the structural category separator; the server " ++
     "inserts it between detection categories. For multiple categories use a Detection request " ++
     "with a `categories` list — do not embed '</c>' in a slot.").toList
  | period =>
    (" ends with '.'; the server appends the single trailing period, so a slot ending in '.' " ++
     "would produce '..'. Remove the trailing period from the slot value.").toList
  | comma => " contains ',': ".toList ++ commaAdvice template

section Compile
variable (T : Templates) (nfc : Str → Str)

/-- A fault as the message of a slot, named by its template and its field. -/
def slotError (template : TemplateKind) (field : Str) (fault : SlotFault) : SlotError :=
  buildError T (displayName template ++ " ".toList ++ field ++ fault.text template) template

def noCategories : SlotError :=
  buildError T
    ("closed-class detection requires at least one category (`request.categories` was " ++
     "empty)").toList .detection

def tooManyCategories (n : Nat) : SlotError :=
  buildError T
    ("closed-class detection has ".toList ++ display n ++ " categories; the maximum is ".toList ++
     display maxDetectionCategories ++
     (". Split into multiple Frames, or use multi-instance phrase grounding for a single " ++
      "free-form phrase.").toList) .detection

def promptTooLong (n : Nat) (kind : TemplateKind) : SlotError :=
  buildError T
    ("compiled prompt length ".toList ++ display n ++ " chars exceeds MAX_PROMPT_CHARS=".toList ++
     display maxPromptChars ++
     (" (the model's tokenizer.model_max_length is 16384 tokens; even pure-ASCII this " ++
      "character cap is generous)").toList) kind

/-! ## Slots -/

/-- `validate_slot`. Lengths are in characters here; the two numbers of a padded slot are in
    bytes, as the messages have them. -/
def validateSlot (slot : Str) (template : TemplateKind) (field : Str) (forbidComma : Bool) :
    Except SlotError Unit :=
  if slot = [] then .error (slotError T template field .empty)
  else if slot.length > maxSlotChars then
    .error (slotError T template field (.tooLong slot.length))
  else if slot ≠ Rust.trim slot then
    .error (slotError T template field
      (.padded (Rust.len slot - Rust.len (Rust.trimStart slot))
        (Rust.len slot - Rust.len (Rust.trimEnd slot))))
  else
    match slot.find? Rust.isControl with
    | some c => .error (slotError T template field (.control c))
    | none =>
      if slot ≠ nfc slot then .error (slotError T template field .notNfc)
      else if T.category_separator <:+: slot then .error (slotError T template field .separator)
      else if ['.'] <:+ slot then .error (slotError T template field .period)
      else if forbidComma = true ∧ ',' ∈ slot then .error (slotError T template field .comma)
      else .ok ()

/-- What a diagnostic calls the category with `i` others in front. -/
def categoryField (i : Nat) : Str := "category at position ".toList ++ display (i + 1)

/-- The loop of `compile_detection`; `i` categories stand in front. -/
def validateCategories : (i : Nat) → List Str → Except SlotError Unit
  | _, [] => .ok ()
  | i, cat :: cats =>
    match validateSlot T nfc cat .detection (categoryField i) true with
    | .error e => .error e
    | .ok () => validateCategories (i + 1) cats

/-- `compile_detection` -/
def compileDetection (categories : List Str) : Except SlotError Str :=
  if categories = [] then .error (noCategories T)
  else if categories.length > maxDetectionCategories then
    .error (tooManyCategories T categories.length)
  else
    match validateCategories T nfc 0 categories with
    | .error e => .error e
    | .ok () =>
      .ok (T.detection_prefix ++ List.intercalate T.category_separator categories ++ ['.'])

/-! ## `compile` -/

/-- One slot in front of the period. Five of the seven templates are this. -/
def compileSlot (slot : Str) (template : TemplateKind) (field : Str) (forbidComma : Bool)
    (pre : Str) : Except SlotError (Str × TemplateKind) :=
  match validateSlot T nfc slot template field forbidComma with
  | .error e => .error e
  | .ok () => .ok (pre ++ slot ++ ['.'], template)

/-- The `match` of `compile`, by the task of the request. -/
def assemble : PromptRequest → Except SlotError (Str × TemplateKind)
  | .detection categories =>
    match compileDetection T nfc categories with
    | .error e => .error e
    | .ok prompt => .ok (prompt, .detection)
  | .phraseSingle phrase =>
    compileSlot T nfc phrase .phraseSingle "phrase".toList false T.single_phrase_prefix
  | .phraseMulti phrase =>
    compileSlot T nfc phrase .phraseMulti "phrase".toList false T.multi_phrase_prefix
  | .textGrounding text =>
    compileSlot T nfc text .textGrounding "text".toList false T.text_grounding_prefix
  | .sceneText => .ok (T.scene_text_exact, .sceneText)
  | .guiBox description =>
    compileSlot T nfc description .guiBox "description".toList false T.gui_box_prefix
  | .point phrase => compileSlot T nfc phrase .point "phrase".toList true T.point_prefix

/-- `compile`: the prompt and the wire name of its template. The cap on the whole prompt comes
    last, on the assembled text. -/
def compile (request : PromptRequest) : Except SlotError (Str × Str) :=
  match assemble T nfc request with
  | .error e => .error e
  | .ok (prompt, kind) =>
    if prompt.length > maxPromptChars then .error (promptTooLong T prompt.length kind)
    else .ok (prompt, kind.wireName)

/-! ## What is accepted -/

/-- A slot that passes every check. The separator is looked for in every slot, also where
    there is only one, and so is the final period: both would change how the prompt is read.
    -/
structure SlotOk (slot : Str) (forbidComma : Bool) : Prop where
  ne_nil : slot ≠ []
  length_le : slot.length ≤ maxSlotChars
  trimmed : Rust.trim slot = slot
  no_control : ∀ c ∈ slot, Rust.isControl c = false
  normal : nfc slot = slot
  no_separator : ¬ T.category_separator <:+: slot
  no_period : ¬ ['.'] <:+ slot
  no_comma : forbidComma = true → ',' ∉ slot

theorem validateSlot_eq_ok_iff {slot : Str} {template : TemplateKind} {field : Str}
    {forbidComma : Bool} :
    validateSlot T nfc slot template field forbidComma = .ok () ↔
      SlotOk T nfc slot forbidComma := by
  constructor
  · intro h
    unfold validateSlot at h
    obtain ⟨hne, h⟩ := ite_error_eq_ok.mp h
    obtain ⟨hlen, h⟩ := ite_error_eq_ok.mp h
    obtain ⟨htrim, h⟩ := ite_error_eq_ok.mp h
    split at h
    · exact absurd h (by simp)
    rename_i hctl
    obtain ⟨hnfc, h⟩ := ite_error_eq_ok.mp h
    obtain ⟨hsep, h⟩ := ite_error_eq_ok.mp h
    obtain ⟨hdot, h⟩ := ite_error_eq_ok.mp h
    obtain ⟨hcomma, -⟩ := ite_error_eq_ok.mp h
    -- what is left is the search for a control character
    refine ⟨hne, by omega, (not_not.mp htrim).symm, ?_, (not_not.mp hnfc).symm, hsep, hdot,
      fun hf hm => hcomma ⟨hf, hm⟩⟩
    exact fun c hc => Bool.eq_false_iff.mpr (List.find?_eq_none.mp hctl c hc)
  · intro h
    have hctl : slot.find? Rust.isControl = none :=
      List.find?_eq_none.mpr fun c hc => by simp [h.no_control c hc]
    have hlen : ¬ slot.length > maxSlotChars := Nat.not_lt.mpr h.length_le
    have hcomma : ¬ (forbidComma = true ∧ ',' ∈ slot) := fun hc => h.no_comma hc.1 hc.2
    simp only [validateSlot, if_neg h.ne_nil, if_neg hlen, h.trimmed, hctl, h.normal,
      if_neg h.no_separator, if_neg h.no_period, if_neg hcomma, ne_eq, not_true_eq_false,
      if_false]

theorem validateCategories_eq_ok_iff (cats : List Str) : ∀ {i : Nat},
    validateCategories T nfc i cats = .ok () ↔ ∀ cat ∈ cats, SlotOk T nfc cat true := by
  induction cats with
  | nil => intro i; simp [validateCategories]
  | cons cat cats ih =>
    intro i
    rw [validateCategories, List.forall_mem_cons,
      ← @validateSlot_eq_ok_iff T nfc cat .detection (categoryField i) true]
    cases hv : validateSlot T nfc cat .detection (categoryField i) true with
    | error e => simp
    | ok u => simp [ih]

/-- The template of a request. -/
def PromptRequest.kind : PromptRequest → TemplateKind
  | .detection _ => .detection
  | .phraseSingle _ => .phraseSingle
  | .phraseMulti _ => .phraseMulti
  | .textGrounding _ => .textGrounding
  | .sceneText => .sceneText
  | .guiBox _ => .guiBox
  | .point _ => .point

/-- The slots of a request, as a list for all tasks, so that what holds of slots can be stated
    once. -/
def PromptRequest.slots : PromptRequest → List Str
  | .detection categories => categories
  | .phraseSingle s | .phraseMulti s | .textGrounding s | .guiBox s | .point s => [s]
  | .sceneText => []

/-- Whether the slots of a template may hold a comma: it may, but where the model would take
    it for a list. -/
def forbidsComma : TemplateKind → Bool
  | .detection | .point => true
  | _ => false

/-- The text in front of the slots. -/
def Templates.slotPrefix : TemplateKind → Str
  | .detection => T.detection_prefix
  | .phraseSingle => T.single_phrase_prefix
  | .phraseMulti => T.multi_phrase_prefix
  | .textGrounding => T.text_grounding_prefix
  | .sceneText => T.scene_text_exact
  | .guiBox => T.gui_box_prefix
  | .point => T.point_prefix

/-- The prompt of a request, validation aside. -/
def render : PromptRequest → Str
  | .sceneText => T.scene_text_exact
  | r => Templates.slotPrefix T r.kind ++ List.intercalate T.category_separator r.slots ++ ['.']

theorem PromptRequest.kind_eq_sceneText {r : PromptRequest} :
    r.kind = .sceneText ↔ r = .sceneText := by
  cases r <;> simp [PromptRequest.kind]

theorem render_eq {r : PromptRequest} (h : r ≠ .sceneText) :
    render T r = Templates.slotPrefix T r.kind ++
      (List.intercalate T.category_separator r.slots ++ ['.']) := by
  cases r <;> first | exact absurd rfl h | simp [render]

/-- The request passes every check. -/
structure Accepted (r : PromptRequest) : Prop where
  categories_ok : ∀ cats, r = .detection cats →
    cats ≠ [] ∧ cats.length ≤ maxDetectionCategories
  slots_ok : ∀ s ∈ r.slots, SlotOk T nfc s (forbidsComma r.kind)
  length_le : (render T r).length ≤ maxPromptChars

theorem compileDetection_eq_ok_iff {categories : List Str} {prompt : Str} :
    compileDetection T nfc categories = .ok prompt ↔
      (categories ≠ [] ∧ categories.length ≤ maxDetectionCategories) ∧
      (∀ s ∈ categories, SlotOk T nfc s true) ∧ prompt = render T (.detection categories) := by
  rw [compileDetection, ite_error_eq_ok, ite_error_eq_ok, Nat.not_lt, and_assoc,
    ← validateCategories_eq_ok_iff T nfc categories (i := 0)]
  apply and_congr_right
  intro _
  apply and_congr_right
  intro _
  cases validateCategories T nfc 0 categories with
  | error e => simp
  | ok u =>
    rw [Except.ok.injEq, eq_comm]
    exact (and_iff_right rfl).symm

theorem compileSlot_eq_ok_iff {slot : Str} {template : TemplateKind} {field : Str}
    {forbidComma : Bool} {pre : Str} {p : Str × TemplateKind} :
    compileSlot T nfc slot template field forbidComma pre = .ok p ↔
      SlotOk T nfc slot forbidComma ∧ p = (pre ++ slot ++ ['.'], template) := by
  rw [compileSlot, ← @validateSlot_eq_ok_iff T nfc slot template field forbidComma]
  cases validateSlot T nfc slot template field forbidComma with
  | error e => simp
  | ok u => simp [eq_comm]

theorem assemble_eq_ok_iff {r : PromptRequest} {p : Str × TemplateKind} :
    assemble T nfc r = .ok p ↔
      (∀ cats, r = .detection cats → cats ≠ [] ∧ cats.length ≤ maxDetectionCategories) ∧
      (∀ s ∈ r.slots, SlotOk T nfc s (forbidsComma r.kind)) ∧ p = (render T r, r.kind) := by
  cases r with
  | detection categories =>
    obtain ⟨prompt, kind⟩ := p
    rw [assemble]
    cases hc : compileDetection T nfc categories with
    | error e =>
      have hno : ∀ prompt, compileDetection T nfc categories ≠ .ok prompt := by
        intro prompt h; rw [hc] at h; exact absurd h (by simp)
      refine ⟨fun h => absurd h (by simp), fun h => ?_⟩
      exact absurd ((compileDetection_eq_ok_iff T nfc).mpr ⟨h.1 _ rfl, h.2.1, rfl⟩) (hno _)
    | ok q =>
      obtain ⟨hcats, hslots, rfl⟩ := (compileDetection_eq_ok_iff T nfc).mp hc
      constructor
      · intro h
        refine ⟨fun cats heq => ?_, hslots, (Except.ok.inj h).symm⟩
        cases heq
        exact hcats
      · rintro ⟨-, -, hp⟩
        rw [hp]
        rfl
  | sceneText => simp [assemble, PromptRequest.slots, render, PromptRequest.kind, eq_comm]
  | phraseSingle s | phraseMulti s | textGrounding s | guiBox s | point s =>
    rw [assemble, compileSlot_eq_ok_iff]
    simp [PromptRequest.slots, render, PromptRequest.kind, forbidsComma, Templates.slotPrefix,
      List.intercalate]

/-- **`compile` accepts the requests that pass every check, and renders them.** -/
theorem compile_eq_ok_iff {r : PromptRequest} {prompt task : Str} :
    compile T nfc r = .ok (prompt, task) ↔
      Accepted T nfc r ∧ prompt = render T r ∧ task = r.kind.wireName := by
  rw [compile]
  cases ha : assemble T nfc r with
  | error e =>
    refine ⟨fun h => absurd h (by simp), fun ⟨h, _, _⟩ => ?_⟩
    have := (assemble_eq_ok_iff T nfc).mpr ⟨h.categories_ok, h.slots_ok, rfl⟩
    rw [ha] at this
    exact absurd this (by simp)
  | ok p =>
    obtain ⟨hcats, hslots, rfl⟩ := (assemble_eq_ok_iff T nfc).mp ha
    simp only
    split
    · rename_i hlen
      exact ⟨fun h => absurd h (by simp), fun ⟨h, _, _⟩ => absurd h.length_le (by omega)⟩
    · rename_i hlen
      simp only [Except.ok.injEq, Prod.mk.injEq]
      constructor
      · rintro ⟨rfl, rfl⟩
        exact ⟨⟨hcats, hslots, by omega⟩, rfl, rfl⟩
      · rintro ⟨-, rfl, rfl⟩
        exact ⟨rfl, rfl⟩

end Compile

end LocateAnything.Edge
