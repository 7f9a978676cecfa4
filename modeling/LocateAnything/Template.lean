import LocateAnything.Text

/-!
# The seven templates

The catalogue both sides of the wire share: `TemplateKind` of `prompt_validator.rs`, whose wire
names are `TEMPLATE_WIRE_NAMES` of `prompts.py` and the keys of `EXPECTED_SHAPE` in
`inference.py`. The boot drift check keeps the three lists equal, so one inductive stands for all
of them. The template *texts* exist twice, once on each side; `Templates` is the shape of either
table.
-/

set_option autoImplicit false

namespace LocateAnything

inductive TemplateKind where
  | detection
  | phraseSingle
  | phraseMulti
  | textGrounding
  | sceneText
  | guiBox
  | point
  deriving DecidableEq, Repr

/-- `TemplateKind::wire_name`: the `prompt_task` of the IPC header. -/
def TemplateKind.wireName : TemplateKind → Str
  | detection => "detection".toList
  | phraseSingle => "phrase_single".toList
  | phraseMulti => "phrase_multi".toList
  | textGrounding => "text_grounding".toList
  | sceneText => "scene_text".toList
  | guiBox => "gui_box".toList
  | point => "point".toList

/-- `TEMPLATE_WIRE_NAMES`, as kinds. -/
def TemplateKind.all : List TemplateKind :=
  [detection, phraseSingle, phraseMulti, textGrounding, sceneText, guiBox, point]

/-- The template a wire name stands for: a lookup in `EXPECTED_SHAPE`'s keys. -/
def TemplateKind.ofWireName? (s : Str) : Option TemplateKind :=
  TemplateKind.all.find? fun k => k.wireName = s

@[simp] theorem TemplateKind.ofWireName?_wireName (k : TemplateKind) :
    ofWireName? k.wireName = some k := by
  cases k <;> decide

theorem TemplateKind.wireName_inj {k k' : TemplateKind} (h : k.wireName = k'.wireName) :
    k = k' := by
  have := ofWireName?_wireName k
  rw [h, ofWireName?_wireName] at this
  exact (Option.some.inj this).symm

/-- A table of template texts: the string entries of `CANONICAL_TEMPLATES` and of
    `canonical_templates_json`. -/
structure Templates where
  category_separator : Str
  detection_prefix : Str
  single_phrase_prefix : Str
  multi_phrase_prefix : Str
  text_grounding_prefix : Str
  scene_text_exact : Str
  gui_box_prefix : Str
  point_prefix : Str
  deriving DecidableEq

end LocateAnything
