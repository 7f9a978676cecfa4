import LocateAnything.Edge.PromptValidator
import LocateAnything.Worker.ValidateStartup

/-!
# What the drift check buys

The edge builds the prompt, `prompts.py` documents it by builders of its own. The two are
written differently: the builders strip and drop what is blank, the edge rejects it. When the
boot check has passed, for whatever values of the constants, they build the same prompts from
the requests the edge accepts (`drift_check_suffices`).

The builders' normalisations do nothing to an accepted slot because what Python strips is
either white space, which the edge does not let stand at an end, or a control character, which
it does not let stand anywhere (`strip_of_trim`).

The constants are variables on both sides, since a check that is only known to pass on today's
constants says nothing: it is there for the day somebody edits one of the files. What it
compares are two tables, key by key, and what has to be shown is that the tables hold every
constant the prompts depend on (`tables_pass_iff`).
-/

set_option autoImplicit false

namespace LocateAnything.Bridge

open Edge (PromptRequest SlotOk Accepted SlotError)
open Worker (Constants Probe Python BuilderError)

/-- The Rust constants behind `canonical_templates_json`. Any values are allowed, empty ones
    and repeated ones too. -/
structure RustConstants where
  templates : Templates
  /-- The texts of `TemplateKind::wire_name`. -/
  wire_name : TemplateKind → Str

/-- `canonical_templates_json` -/
def RustConstants.canonicalTemplatesJson (R : RustConstants) : List (Str × Json Str) :=
  [("category_separator".toList, .str R.templates.category_separator),
   ("detection_prefix".toList, .str R.templates.detection_prefix),
   ("single_phrase_prefix".toList, .str R.templates.single_phrase_prefix),
   ("multi_phrase_prefix".toList, .str R.templates.multi_phrase_prefix),
   ("text_grounding_prefix".toList, .str R.templates.text_grounding_prefix),
   ("scene_text_exact".toList, .str R.templates.scene_text_exact),
   ("gui_box_prefix".toList, .str R.templates.gui_box_prefix),
   ("point_prefix".toList, .str R.templates.point_prefix),
   ("template_wire_names".toList, .arr
     [.str (R.wire_name .detection), .str (R.wire_name .phraseSingle),
      .str (R.wire_name .phraseMulti), .str (R.wire_name .textGrounding),
      .str (R.wire_name .sceneText), .str (R.wire_name .guiBox), .str (R.wire_name .point)])]

/-- `compile`, under other constants. -/
def RustConstants.compile (R : RustConstants) (nfc : Str → Str) (request : PromptRequest) :
    Except SlotError (Str × Str) :=
  match Edge.assemble R.templates nfc request with
  | .error e => .error e
  | .ok (prompt, kind) =>
    if prompt.length > Edge.maxPromptChars then
      .error (Edge.promptTooLong R.templates prompt.length kind)
    else .ok (prompt, R.wire_name kind)

/-- The constants of the crate. -/
def rustConstants : RustConstants := ⟨Edge.templates, TemplateKind.wireName⟩

/-- The builder of a request's template, on its slots. The GUI builder has a second shape, for
    points, that no request of the edge asks for. -/
def builder (T : Templates) : PromptRequest → Except BuilderError Str
  | .detection categories => Worker.detectCategories T categories
  | .phraseSingle phrase => Worker.groundSingle T phrase
  | .phraseMulti phrase => Worker.groundMulti T phrase
  | .textGrounding text => Worker.groundText T text
  | .sceneText => .ok (Worker.detectText T)
  | .guiBox description => Worker.groundGui T description "box".toList
  | .point phrase => Worker.pointTo T phrase

/-- The crate's `compile` is the one under its own wire names. -/
theorem compile_eq (nfc : Str → Str) (r : PromptRequest) :
    rustConstants.compile nfc r = Edge.compile Edge.templates nfc r := rfl

section Slots
variable {T : Templates} {nfc : Str → Str}

theorem phraseBuilder_of_slotOk {name pre s : Str} {forbidComma : Bool}
    (h : SlotOk T nfc s forbidComma) :
    Worker.phraseBuilder name pre s = .ok (pre ++ s ++ ['.']) := by
  have hne : ¬ (s = [] ∨ Py.strip s = []) := by
    rw [strip_of_trim h.trimmed h.no_control, or_self]
    exact h.ne_nil
  unfold Worker.phraseBuilder
  rw [if_neg hne, strip_of_trim h.trimmed h.no_control]

/-- Clean categories are neither dropped nor changed. -/
theorem categories_eq_self {categories : List Str}
    (h : ∀ s ∈ categories, s ≠ [] ∧ Py.strip s = s) :
    (categories.filter fun c => Py.strip c ≠ []).map Py.strip = categories := by
  have hfilter : (categories.filter fun c => Py.strip c ≠ []) = categories := by
    apply List.filter_eq_self.mpr
    intro s hs
    rw [(h s hs).2]
    exact decide_eq_true (h s hs).1
  rw [hfilter]
  calc categories.map Py.strip = categories.map id :=
        List.map_congr_left fun s hs => (h s hs).2
    _ = categories := List.map_id _

theorem categories_of_slotOk {categories : List Str}
    (h : ∀ s ∈ categories, SlotOk T nfc s true) :
    (categories.filter fun c => Py.strip c ≠ []).map Py.strip = categories :=
  categories_eq_self fun s hs =>
    ⟨(h s hs).ne_nil, strip_of_trim (h s hs).trimmed (h s hs).no_control⟩

/-- **Under one table the builder and `compile` agree on what `compile` accepts.** -/
theorem builder_of_assemble {r : PromptRequest} {prompt : Str} {kind : TemplateKind}
    (h : Edge.assemble T nfc r = .ok (prompt, kind)) :
    builder T r = .ok prompt ∧ kind = r.kind := by
  obtain ⟨hcats, hslots, hp⟩ := (Edge.assemble_eq_ok_iff T nfc).mp h
  obtain ⟨rfl, rfl⟩ := Prod.mk.inj hp
  refine ⟨?_, rfl⟩
  cases r with
  | detection categories =>
    -- `detect_categories` drops and strips, and finds nothing to do
    have hkept : (categories.filter fun c => Py.strip c ≠ []).map Py.strip = categories :=
      categories_of_slotOk hslots
    unfold builder Worker.detectCategories
    dsimp only
    rw [hkept, if_neg (hcats categories rfl).1]
    rfl
  | sceneText => rfl
  | phraseSingle s | phraseMulti s | textGrounding s | point s =>
    have hs := hslots s (List.mem_singleton.mpr rfl)
    simp only [Edge.render, PromptRequest.slots, List.intercalate_singleton]
    exact phraseBuilder_of_slotOk hs
  | guiBox s =>
    have hs := hslots s (List.mem_singleton.mpr rfl)
    have hbox : ¬ "box".toList = "point".toList := by decide
    simp only [builder, Worker.groundGui, if_neg hbox, Edge.render, PromptRequest.slots,
      List.intercalate_singleton]
    exact phraseBuilder_of_slotOk hs

end Slots

/-! ## Tables that pass -/

theorem keys_eq (R : RustConstants) (P : Constants) :
    (P.canonicalTemplates.map fun e => (e.1, e.2.toJson)).map Prod.fst =
      R.canonicalTemplatesJson.map Prod.fst := rfl

theorem keys_nodup (R : RustConstants) : (R.canonicalTemplatesJson.map Prod.fst).Nodup :=
  of_decide_eq_true rfl

/-- The tables are equal exactly if the constants are: no constant of a prompt is missing in
    them, and nothing else is in them. -/
theorem table_eq_iff {R : RustConstants} {P : Constants} :
    P.canonicalTemplates.map (fun e => (e.1, e.2.toJson)) = R.canonicalTemplatesJson ↔
      R.templates = P.templates ∧ TemplateKind.all.map R.wire_name = P.template_wire_names := by
  obtain ⟨T, wire_name⟩ := R
  obtain ⟨T', wire_names, shape⟩ := P
  have hnames : wire_names.map (Json.str (κ := Str)) =
      (TemplateKind.all.map wire_name).map .str ↔ TemplateKind.all.map wire_name = wire_names := by
    rw [List.map_inj_right fun a b h => Json.str.inj h, eq_comm]
  simp only [Constants.canonicalTemplates, RustConstants.canonicalTemplatesJson, List.map_cons,
    List.map_nil, Worker.TemplateValue.toJson, List.cons.injEq, Prod.mk.injEq, Json.str.injEq,
    Json.arr.injEq, true_and, and_true]
  simp only [TemplateKind.all, List.map_cons, List.map_nil] at hnames
  rw [hnames]
  cases T
  cases T'
  simp [TemplateKind.all, Templates.mk.injEq, and_assoc, eq_comm]

/-- **Tables pass when they are the same tables.** -/
theorem tables_pass_iff {R : RustConstants} {P : Constants} {rust : Worker.Dict}
    (hperm : rust.Perm R.canonicalTemplatesJson) :
    Worker.compareTables P.canonicalTemplates rust = .ok () ↔
      R.templates = P.templates ∧ TemplateKind.all.map R.wire_name = P.template_wire_names := by
  have hnodup : (rust.map Prod.fst).Nodup := (hperm.map Prod.fst).nodup_iff.mpr (keys_nodup R)
  rw [Worker.compareTables_eq_ok_iff, ← table_eq_iff]
  constructor
  · rintro ⟨-, hvalues⟩
    apply Json.eq_of_keys_of_subset (keys_eq R P) (keys_nodup R)
    intro x hx
    obtain ⟨e, he, rfl⟩ := List.mem_map.mp hx
    exact hperm.mem_iff.mp ((Json.get_eq_some_iff hnodup).mp (hvalues e he))
  · intro heq
    have hkeys : (rust.map Prod.fst).Perm (P.canonicalTemplates.map Prod.fst) := by
      rw [show P.canonicalTemplates.map Prod.fst = R.canonicalTemplatesJson.map Prod.fst from
        keys_eq R P]
      exact hperm.map Prod.fst
    refine ⟨⟨hkeys.symm.subset, hkeys.subset⟩, fun e he => ?_⟩
    apply (Json.get_eq_some_iff hnodup).mpr
    rw [hperm.mem_iff, ← heq]
    exact List.mem_map_of_mem he

/-- **The boot drift check suffices for prompt agreement.** Whatever the constants of the two
    sides, when the check has passed on what the binary prints, a request that `compile` accepts
    is compiled to what the builder of its template returns, under a task that `EXPECTED_SHAPE`
    knows. -/
theorem drift_check_suffices (py : Python) (R : RustConstants) (P : Constants)
    (returncode : Int) (stdout stderr : Framing.Bytes) (rust : Worker.Dict) (nfc : Str → Str)
    (r : PromptRequest) (prompt task : Str) (hprints : py.loads stdout = .ok (.obj rust))
    (hperm : rust.Perm R.canonicalTemplatesJson)
    (hpasses : Worker.validatePromptTemplateDrift py P (.completed returncode stdout stderr) =
      .ok ())
    (hcompile : R.compile nfc r = .ok (prompt, task)) :
    builder P.templates r = .ok prompt ∧ task ∈ P.expected_shape.map Prod.fst := by
  obtain ⟨_, _, _, hprobe, hload, htables, hwire⟩ :=
    Worker.validatePromptTemplateDrift_eq_ok_iff.mp hpasses
  cases hprobe
  rw [hprints] at hload
  cases hload
  obtain ⟨htemplates, hnames⟩ := (tables_pass_iff hperm).mp htables
  unfold RustConstants.compile at hcompile
  split at hcompile
  · exact absurd hcompile (by simp)
  rename_i prompt' kind hassemble
  split at hcompile
  · exact absurd hcompile (by simp)
  obtain ⟨rfl, rfl⟩ := Prod.mk.inj (Except.ok.inj hcompile)
  refine ⟨htemplates ▸ (builder_of_assemble hassemble).1, ?_⟩
  apply (Worker.compareWireNames_eq_ok_iff.mp hwire).2
  rw [← hnames]
  apply List.mem_map_of_mem
  cases kind <;> decide

/-- A Python that reads the printed table. -/
def tablePython : Python where
  loads := fun _ => .ok (.obj rustConstants.canonicalTemplatesJson)
  dumps := fun _ => []
  repr := fun _ => []
  inferenceTimeout := []

theorem drift_check_suffices_cat_dog :
    builder Worker.constants.templates (.detection ["cat".toList, "dog".toList]) = .ok
      ("Locate all the instances that matches the following description: cat</c>dog.").toList ∧
    "detection".toList ∈ Worker.constants.expected_shape.map Prod.fst :=
  drift_check_suffices tablePython rustConstants Worker.constants 0 [] []
    rustConstants.canonicalTemplatesJson id (.detection ["cat".toList, "dog".toList]) _ _ rfl
    (List.Perm.refl _)
    (Worker.validatePromptTemplateDrift_eq_ok_iff.mpr
      ⟨[], [], _, rfl, rfl,
        (tables_pass_iff (R := rustConstants) (List.Perm.refl _)).mpr ⟨rfl, rfl⟩,
        Worker.compareWireNames_eq_ok_iff.mpr (by decide +kernel)⟩)
    (by decide +kernel)

end LocateAnything.Bridge
