import LocateAnything.Template

/-!
# `worker/prompts.py`

The template constants, the builders of the seven prompts, and the two readers of a compiled
prompt: `classify_prompt`, which finds the template, and `point_phrase`, which recovers the
slot of a pointing prompt.

The constants repeat what the edge has; it is the drift check that keeps the two files in
step. The readers are for this table and no other, as in the source. The builders take it as
an argument (`T`), since the drift check is about tables that somebody has changed.
-/

set_option autoImplicit false

namespace LocateAnything.Worker

/-- `CANONICAL_TEMPLATES`. The multi-phrase prefix says `match`, the others `matches`. -/
def templates : Templates where
  category_separator := "</c>".toList
  detection_prefix := "Locate all the instances that matches the following description: ".toList
  single_phrase_prefix :=
    "Locate a single instance that matches the following description: ".toList
  multi_phrase_prefix := "Locate all the instances that match the following description: ".toList
  text_grounding_prefix := "Please locate the text referred as ".toList
  scene_text_exact := "Detect all the text in box format.".toList
  gui_box_prefix := "Locate the region that matches the following description: ".toList
  point_prefix := "Point to: ".toList

/-- The `ValueError`s of this file, with the prompt their text quotes. -/
inductive PromptError where
  | notCanonicalPoint (prompt : Str)
  | emptyPhraseSlot (prompt : Str)
  | noTemplate (prompt : Str)
  deriving DecidableEq

/-- `body[:-1] if body.endswith(".") else body` -/
def dropPeriod (body : Str) : Str := if ['.'].isSuffixOf body then body.dropLast else body

/-- `point_phrase` -/
def pointPhrase (prompt : Str) : Except PromptError Str :=
  if templates.point_prefix.isPrefixOf prompt then
    let phrase := dropPeriod (prompt.drop templates.point_prefix.length)
    if phrase = [] then .error (.emptyPhraseSlot prompt) else .ok phrase
  else .error (.notCanonicalPoint prompt)

/-- `classify_prompt` -/
def classifyPrompt (prompt : Str) : Except PromptError TemplateKind :=
  if prompt = templates.scene_text_exact then .ok .sceneText
  else if templates.detection_prefix.isPrefixOf prompt then .ok .detection
  else if templates.single_phrase_prefix.isPrefixOf prompt then .ok .phraseSingle
  else if templates.multi_phrase_prefix.isPrefixOf prompt then .ok .phraseMulti
  else if templates.text_grounding_prefix.isPrefixOf prompt then .ok .textGrounding
  else if templates.gui_box_prefix.isPrefixOf prompt then .ok .guiBox
  else if templates.point_prefix.isPrefixOf prompt then .ok .point
  else .error (.noTemplate prompt)

/-! ## The builders -/

/-- The `ValueError` of a builder: its name and what it requires. -/
structure BuilderError where
  builder : Str
  required : Str
  deriving DecidableEq

def BuilderError.message (e : BuilderError) : Str := e.builder ++ " requires ".toList ++ e.required

section Builders
variable (T : Templates)

/-- `detect_categories` -/
def detectCategories (categories : List Str) : Except BuilderError Str :=
  let cats := (categories.filter fun c => Py.strip c ≠ []).map Py.strip
  if cats = [] then .error ⟨"detect_categories".toList, "at least one category".toList⟩
  else .ok (T.detection_prefix ++ List.intercalate T.category_separator cats ++ ['.'])

/-- The body the phrase builders share. In the source each has its own copy, with its name in
    the message. -/
def phraseBuilder (name pre phrase : Str) : Except BuilderError Str :=
  if phrase = [] ∨ Py.strip phrase = [] then .error ⟨name, "a non-empty phrase".toList⟩
  else .ok (pre ++ Py.strip phrase ++ ['.'])

def groundSingle : (phrase : Str) → Except BuilderError Str :=
  phraseBuilder "ground_single".toList T.single_phrase_prefix

def groundMulti : (phrase : Str) → Except BuilderError Str :=
  phraseBuilder "ground_multi".toList T.multi_phrase_prefix

def groundText : (phrase : Str) → Except BuilderError Str :=
  phraseBuilder "ground_text".toList T.text_grounding_prefix

def detectText : Str := T.scene_text_exact

/-- `ground_gui(phrase, output_type)`; `output_type` is `"box"` by default. -/
def groundGui (phrase output_type : Str) : Except BuilderError Str :=
  phraseBuilder "ground_gui".toList
    (if output_type = "point".toList then T.point_prefix else T.gui_box_prefix) phrase

def pointTo : (phrase : Str) → Except BuilderError Str :=
  phraseBuilder "point_to".toList T.point_prefix

end Builders

end LocateAnything.Worker
