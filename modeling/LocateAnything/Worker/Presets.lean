import LocateAnything.Worker.Connection
import LocateAnything.Worker.Prompts

/-!
# `worker/prompts.py`: typed requests and presets

The constructors of the typed requests, and the presets that are made with them, next to the
prompts they stand for. A slot is any Python value: one that is not a `str` is refused like
one that is blank.

A preset says the same thing twice, as a request that a client can send and as a sentence in
the list of prompts, and nothing in `prompts.py` compares the two. The tables are here value
for value, so that they can be (`Bridge.Presets`). Both are made by functions that may refuse,
at import time: a table that cannot be made keeps the worker from starting, so an `Except`
stands for the whole list.
-/

set_option autoImplicit false

namespace LocateAnything.Worker

/-- `_clean_slot`: a slot is stripped before it is looked at. -/
def cleanSlot (s : Json Str) (what : Str) : Except BuilderError Str :=
  match s with
  | .str s => if Py.strip s = [] then .error ⟨what, "a non-empty string".toList⟩ else .ok (Py.strip s)
  | _ => .error ⟨what, "a non-empty string".toList⟩

/-- `[c.strip() for c in categories if isinstance(c, str) and c.strip()]` -/
def cleanCategories (categories : List (Json Str)) : List Str :=
  categories.filterMap fun
    | .str c => if Py.strip c = [] then none else some (Py.strip c)
    | _ => none

/-- `req_detection`. Blank categories are dropped, and it is an error only if none is left. -/
def reqDetection (categories : List (Json Str)) : Except BuilderError Dict :=
  let cats := cleanCategories categories
  if cats = [] then .error ⟨"req_detection".toList, "at least one category".toList⟩
  else .ok [("task".toList, .str "detection".toList), ("categories".toList, .arr (cats.map .str))]

/-- The body the constructors with one slot share. -/
def slotRequest (what task field : Str) (s : Json Str) : Except BuilderError Dict := do
  let slot ← cleanSlot s what
  return [("task".toList, .str task), (field, .str slot)]

def reqPhraseSingle : (phrase : Json Str) → Except BuilderError Dict :=
  slotRequest "req_phrase_single".toList "phrase_single".toList "phrase".toList

def reqPhraseMulti : (phrase : Json Str) → Except BuilderError Dict :=
  slotRequest "req_phrase_multi".toList "phrase_multi".toList "phrase".toList

def reqTextGrounding : (text : Json Str) → Except BuilderError Dict :=
  slotRequest "req_text_grounding".toList "text_grounding".toList "text".toList

def reqSceneText : Dict := [("task".toList, .str "scene_text".toList)]

def reqGuiBox : (description : Json Str) → Except BuilderError Dict :=
  slotRequest "req_gui_box".toList "gui_box".toList "description".toList

def reqPoint : (phrase : Json Str) → Except BuilderError Dict :=
  slotRequest "req_point".toList "point".toList "phrase".toList

/-! ## Presets -/

/-- A preset: what a user picks, the request that is sent for it, and the mode. -/
structure Preset where
  label : Str
  request : Dict
  generation_mode : Str

/-- What keeps a preset from being made, and the worker from starting. -/
inductive PresetError where
  | request (e : BuilderError)
  /-- The `ValueError` of `_preset`, which quotes the mode. -/
  | mode (generation_mode : Str)

/-- `_preset`, with its argument -/
def preset (label : Str) (request : Except BuilderError Dict) (generation_mode : Str) :
    Except PresetError Preset :=
  match request with
  | .error e => .error (.request e)
  | .ok request =>
    if generation_mode ∈ modes then .ok ⟨label, request, generation_mode⟩
    else .error (.mode generation_mode)

/-- A list of literals, as an argument -/
def strs (ss : List String) : List (Json Str) := ss.map fun s => .str s.toList

/-- `DRONE_PRESETS_RANKED` -/
def dronePresetsRanked : Except PresetError (List Preset) :=
  [preset "drone (point)".toList (reqPoint (.str "drone in the sky".toList)) "slow".toList,
   preset "drone (detect)".toList (reqDetection (strs ["drone"])) "slow".toList,
   preset "small drone (phrase, multi)".toList
     (reqPhraseMulti (.str "a small drone in the sky".toList)) "slow".toList,
   preset "quadcopter (point)".toList (reqPoint (.str "quadcopter".toList)) "slow".toList,
   preset "drone/uav/aircraft (detect)".toList
     (reqDetection (strs ["drone", "quadcopter", "uav", "aircraft"])) "slow".toList,
   preset "flying object (phrase, multi)".toList
     (reqPhraseMulti (.str "a flying object in the sky".toList)) "slow".toList,
   preset "the drone (phrase, single)".toList (reqPhraseSingle (.str "the drone".toList))
     "slow".toList].mapM id

/-- `HOUSEHOLD_PRESETS` -/
def householdPresets : Except PresetError (List Preset) :=
  [preset "office".toList (reqDetection
     (strs ["bottle", "cup", "laptop", "keyboard", "mouse", "monitor", "book"])) "hybrid".toList,
   preset "living_room".toList (reqDetection
     (strs ["person", "dog", "cat", "couch", "tv", "laptop", "book", "cup"])) "hybrid".toList,
   preset "kitchen".toList (reqDetection
     (strs ["bottle", "cup", "bowl", "knife", "spoon", "refrigerator", "microwave"]))
     "hybrid".toList,
   preset "street".toList (reqDetection
     (strs ["person", "car", "bus", "bicycle", "traffic light", "stop sign"])) "hybrid".toList,
   preset "demo".toList (reqDetection
     (strs ["person", "laptop", "bottle", "cup", "book", "monitor", "keyboard"]))
     "hybrid".toList].mapM id

section Prompts
variable (T : Templates)

/-- `DRONE_PROMPTS_RANKED` -/
def dronePromptsRanked : Except BuilderError (List Str) :=
  [pointTo T "drone in the sky".toList,
   detectCategories T ["drone".toList],
   groundMulti T "a small drone in the sky".toList,
   pointTo T "quadcopter".toList,
   detectCategories T ["drone".toList, "quadcopter".toList, "uav".toList, "aircraft".toList],
   groundMulti T "a flying object in the sky".toList,
   groundSingle T "the drone".toList].mapM id

/-- An entry of `HOUSEHOLD_PROMPTS` -/
def household (label : String) (categories : List String) : Except BuilderError (Str × Str) := do
  let prompt ← detectCategories T (categories.map String.toList)
  return (label.toList, prompt)

/-- `HOUSEHOLD_PROMPTS` -/
def householdPrompts : Except BuilderError (List (Str × Str)) :=
  [household T "office" ["bottle", "cup", "laptop", "keyboard", "mouse", "monitor", "book"],
   household T "living_room" ["person", "dog", "cat", "couch", "tv", "laptop", "book", "cup"],
   household T "kitchen"
     ["bottle", "cup", "bowl", "knife", "spoon", "refrigerator", "microwave"],
   household T "street" ["person", "car", "bus", "bicycle", "traffic light", "stop sign"],
   household T "demo"
     ["person", "laptop", "bottle", "cup", "book", "monitor", "keyboard"]].mapM id

end Prompts

end LocateAnything.Worker
