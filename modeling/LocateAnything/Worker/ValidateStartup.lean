import LocateAnything.Worker.Connection

/-!
# `validate_startup.py`: the template drift check

`validate_prompt_template_drift` compares three tables before the worker serves anything: what
`la_server --print-canonical-templates` prints, `CANONICAL_TEMPLATES` of `prompts.py` and the
keys of `EXPECTED_SHAPE` in `inference.py`. The prompt is built in one program and taken apart
in another, in two languages, so the sentences are written down twice; this check is all that
keeps the copies together.

Here the three are arbitrary, since what the check is worth shows where they differ.
`validate_eq_ok_iff` says what it amounts to. The tables are compared as Python compares them:
a text with a string, a list of names with an array of strings, and anything else is unequal.
What the binary prints is untrusted in the sense that it may be no JSON, no object, or another
table; each of these has its own message.
-/

set_option autoImplicit false

namespace LocateAnything.Worker

open Checks
open Framing (Bytes)

/-- The Python constants under the check. -/
structure Constants where
  templates : Templates
  /-- `TEMPLATE_WIRE_NAMES` -/
  template_wire_names : List Str
  /-- `EXPECTED_SHAPE` -/
  expected_shape : List (Str × Str)

/-- The constants as they stand. -/
def constants : Constants where
  templates := templates
  template_wire_names :=
    ["detection".toList, "phrase_single".toList, "phrase_multi".toList, "text_grounding".toList,
     "scene_text".toList, "gui_box".toList, "point".toList]
  expected_shape :=
    [("detection".toList, "box".toList), ("phrase_single".toList, "box".toList),
     ("phrase_multi".toList, "box".toList), ("text_grounding".toList, "box".toList),
     ("scene_text".toList, "box".toList), ("gui_box".toList, "box".toList),
     ("point".toList, "point".toList)]

/-- A value of `CANONICAL_TEMPLATES`: eight texts and a list. -/
inductive TemplateValue where
  | text (s : Str)
  | names (ss : List Str)

/-- `CANONICAL_TEMPLATES` -/
def Constants.canonicalTemplates (P : Constants) : List (Str × TemplateValue) :=
  [("category_separator".toList, .text P.templates.category_separator),
   ("detection_prefix".toList, .text P.templates.detection_prefix),
   ("single_phrase_prefix".toList, .text P.templates.single_phrase_prefix),
   ("multi_phrase_prefix".toList, .text P.templates.multi_phrase_prefix),
   ("text_grounding_prefix".toList, .text P.templates.text_grounding_prefix),
   ("scene_text_exact".toList, .text P.templates.scene_text_exact),
   ("gui_box_prefix".toList, .text P.templates.gui_box_prefix),
   ("point_prefix".toList, .text P.templates.point_prefix),
   ("template_wire_names".toList, .names P.template_wire_names)]

def TemplateValue.toJson : TemplateValue → Json Str
  | text s => .str s
  | names ss => .arr (ss.map .str)

/-- The text of a JSON string. -/
def textOf : Json Str → Option Str
  | .str s => some s
  | _ => none

/-- `py_val == rust_val`, on what `json.loads` has made of the Rust value. -/
def TemplateValue.equals : TemplateValue → Json Str → Bool
  | text s, d => textOf d = some s
  | names ss, .arr elems => elems.map textOf = ss.map some
  | names _, _ => false

/-- What comes of running the binary. -/
inductive Probe where
  | noBinary
  /-- `TimeoutExpired` or `OSError`. -/
  | notRun (e : Str)
  | completed (returncode : Int) (stdout stderr : Bytes)

/-- The calls of `fail`. -/
inductive DriftFault where
  | noBinary
  | notRun (e : Str)
  | exited (returncode : Int) (stderr : Bytes)
  | unparsable (e : LoadError) (stdout : Bytes)
  | notObject (got : Json Str)
  | keys (missing_in_rust extra_in_rust : List Str)
  | values (drift : List (Str × TemplateValue × Option (Json Str)))
  | wireNames (only_in_expected only_in_wire : List Str)

/-- `sorted(a - b)` -/
def sortedDiff (a b : List Str) : List Str := (a.filter fun x => x ∉ b).mergeSort

/-- The comparison of two tables. The keys come first, so that a key only one side has is
    reported as that, and not as a value that differs from nothing. -/
def compareTables (py : List (Str × TemplateValue)) (rust : Dict) : Except DriftFault Unit :=
  let pyKeys := py.map Prod.fst
  let rustKeys := rust.map Prod.fst
  if ¬ (pyKeys ⊆ rustKeys ∧ rustKeys ⊆ pyKeys) then
    .error (.keys (sortedDiff pyKeys rustKeys) (sortedDiff rustKeys pyKeys))
  else
    let drift := (py.map fun e => (e.1, e.2, Json.get e.1 rust)).filter fun e =>
      !(e.2.2.map e.2.1.equals).getD false
    if drift ≠ [] then .error (.values drift) else .ok ()

/-- The cross-check of `EXPECTED_SHAPE`: a task without a shape would be refused at its first
    request. -/
def compareWireNames (P : Constants) : Except DriftFault Unit :=
  let expectedShapeKeys := P.expected_shape.map Prod.fst
  let wireNameSet := P.template_wire_names
  if ¬ (expectedShapeKeys ⊆ wireNameSet ∧ wireNameSet ⊆ expectedShapeKeys) then
    .error (.wireNames (sortedDiff expectedShapeKeys wireNameSet)
      (sortedDiff wireNameSet expectedShapeKeys))
  else .ok ()

/-- `validate_prompt_template_drift` -/
def validatePromptTemplateDrift (py : Python) (P : Constants) : Probe → Except DriftFault Unit
  | .noBinary => .error .noBinary
  | .notRun e => .error (.notRun e)
  | .completed returncode stdout stderr =>
    if returncode ≠ 0 then .error (.exited returncode stderr)
    else
      match py.loads stdout with
      | .error e => .error (.unparsable e stdout)
      | .ok (.obj rust) =>
        match compareTables P.canonicalTemplates rust with
        | .error e => .error e
        | .ok () => compareWireNames P
      | .ok other => .error (.notObject other)

/-! ## What it amounts to -/

theorem textOf_eq_some_iff {d : Json Str} {s : Str} : textOf d = some s ↔ d = .str s := by
  cases d <;> simp [textOf]

theorem map_textOf_eq_iff {elems : List (Json Str)} : ∀ {ss : List Str},
    elems.map textOf = ss.map some ↔ elems = ss.map .str := by
  induction elems with
  | nil => intro ss; cases ss <;> simp
  | cons d elems ih =>
    intro ss
    cases ss with
    | nil => simp
    | cons s ss =>
      simp only [List.map_cons, List.cons.injEq]
      rw [textOf_eq_some_iff, ih]

/-- Python's comparison says that the document is the value's own. -/
theorem TemplateValue.equals_iff {v : TemplateValue} {d : Json Str} :
    v.equals d = true ↔ d = v.toJson := by
  cases v with
  | text s =>
    simp only [equals, toJson, decide_eq_true_eq]
    exact textOf_eq_some_iff
  | names ss =>
    cases d with
    | arr elems =>
      simp only [equals, toJson, decide_eq_true_eq, Json.arr.injEq]
      exact map_textOf_eq_iff
    | null | bool | num | str | obj => simp [equals, toJson]

/-- The tables pass when they have the same keys and every Python value is the Rust one. -/
theorem compareTables_eq_ok_iff {py : List (Str × TemplateValue)} {rust : Dict} :
    compareTables py rust = .ok () ↔
      (py.map Prod.fst ⊆ rust.map Prod.fst ∧ rust.map Prod.fst ⊆ py.map Prod.fst) ∧
      ∀ e ∈ py, Json.get e.1 rust = some e.2.toJson := by
  unfold compareTables
  by_cases hkeys : py.map Prod.fst ⊆ rust.map Prod.fst ∧ rust.map Prod.fst ⊆ py.map Prod.fst
  · rw [if_neg (not_not.mpr hkeys)]
    have hvalue : ∀ e : Str × TemplateValue,
        (Json.get e.1 rust).map e.2.equals = some true ↔
          Json.get e.1 rust = some e.2.toJson := by
      intro e
      cases hg : Json.get e.1 rust with
      | none => simp
      | some d => simp only [Option.map_some, Option.some.injEq, TemplateValue.equals_iff]
    have hgood : ∀ o : Option Bool, o.getD false = true ↔ o = some true := by
      intro o; cases o <;> simp
    simp only [hkeys, and_self, true_and, ← hvalue, ← hgood, ne_eq, ite_not]
    split
    · rename_i hnil
      refine ⟨fun _ e he => ?_, fun _ => rfl⟩
      have := List.filter_eq_nil_iff.mp hnil _ (List.mem_map_of_mem he)
      simpa using this
    · rename_i hne
      refine ⟨fun h => absurd h (by simp), fun h => absurd ?_ hne⟩
      apply List.filter_eq_nil_iff.mpr
      intro x hx
      obtain ⟨e, he, rfl⟩ := List.mem_map.mp hx
      simp [h e he]
  · rw [if_pos hkeys]
    exact ⟨fun h => absurd h (by simp), fun h => absurd h.1 hkeys⟩

theorem compareWireNames_eq_ok_iff {P : Constants} :
    compareWireNames P = .ok () ↔
      P.expected_shape.map Prod.fst ⊆ P.template_wire_names ∧
      P.template_wire_names ⊆ P.expected_shape.map Prod.fst := by
  unfold compareWireNames
  by_cases h : P.expected_shape.map Prod.fst ⊆ P.template_wire_names ∧
      P.template_wire_names ⊆ P.expected_shape.map Prod.fst
  · rw [if_neg (not_not.mpr h)]
    simp [h]
  · rw [if_pos h]
    exact ⟨fun h' => absurd h' (by simp), fun h' => absurd h' h⟩

/-- **The check passes when the binary prints the Python table, and `EXPECTED_SHAPE` has its wire
    names for keys.** -/
theorem validatePromptTemplateDrift_eq_ok_iff {py : Python} {P : Constants} {probe : Probe} :
    validatePromptTemplateDrift py P probe = .ok () ↔
      ∃ stdout stderr rust, probe = .completed 0 stdout stderr ∧ py.loads stdout = .ok (.obj rust) ∧
        compareTables P.canonicalTemplates rust = .ok () ∧ compareWireNames P = .ok () := by
  constructor
  · intro h
    cases probe with
    | noBinary => exact absurd h (by simp [validatePromptTemplateDrift])
    | notRun e => exact absurd h (by simp [validatePromptTemplateDrift])
    | completed returncode stdout stderr =>
      unfold validatePromptTemplateDrift at h
      dsimp only at h
      rw [ite_error_eq_ok, not_not] at h
      obtain ⟨rfl, h⟩ := h
      split at h
      · exact absurd h (by simp)
      · rename_i rust hload
        split at h
        · exact absurd h (by simp)
        · rename_i htables
          exact ⟨stdout, stderr, rust, rfl, hload, htables, h⟩
      · exact absurd h (by simp)
  · rintro ⟨stdout, stderr, rust, rfl, hload, htables, hwire⟩
    simp only [validatePromptTemplateDrift, hload, htables, hwire, ne_eq, not_true_eq_false,
      if_false]

end LocateAnything.Worker
