import LocateAnything.Bridge.Drift
import LocateAnything.Edge.Wire
import LocateAnything.Worker.Presets

/-!
# Presets against prompts

`prompts.py` says everything twice: the builders make prompts, and the typed constructors make
the requests that the edge compiles into prompts. Both clean their slots, each in its own
words. They object to the same slots, and what a constructor makes is compiled, if at all, to
what the builder makes of the slots as they were (`typed_request_agrees`); the presets are the
prompts of the same rank or name (`presets_serve`).

The edge may still refuse what a constructor has made, a category with a comma for instance,
so there is no equivalence to be had; but it is never compiled to something else. The proof
goes by cleaning: a constructor's request is the one with the slots stripped, a builder does
not see the difference (`builder_stripped`), and on stripped slots builder and `compile` have
been compared before.
-/

set_option autoImplicit false

namespace LocateAnything.Bridge

open Edge (PromptRequest)
open Worker (BuilderError Dict Preset)

/-- The typed constructor of a request's template, on its slots. -/
def typedRequest : PromptRequest → Except BuilderError Dict
  | .detection categories => Worker.reqDetection (categories.map .str)
  | .phraseSingle phrase => Worker.reqPhraseSingle (.str phrase)
  | .phraseMulti phrase => Worker.reqPhraseMulti (.str phrase)
  | .textGrounding text => Worker.reqTextGrounding (.str text)
  | .sceneText => .ok Worker.reqSceneText
  | .guiBox description => Worker.reqGuiBox (.str description)
  | .point phrase => Worker.reqPoint (.str phrase)

/-- What cleaning leaves of the slots. Blank categories go, in the other templates a blank
    slot remains as the empty one and is objected to. -/
def stripped : PromptRequest → PromptRequest
  | .detection categories =>
    .detection ((categories.filter fun c => Py.strip c ≠ []).map Py.strip)
  | .phraseSingle phrase => .phraseSingle (Py.strip phrase)
  | .phraseMulti phrase => .phraseMulti (Py.strip phrase)
  | .textGrounding text => .textGrounding (Py.strip text)
  | .sceneText => .sceneText
  | .guiBox description => .guiBox (Py.strip description)
  | .point phrase => .point (Py.strip phrase)

@[simp] theorem stripped_kind (r : PromptRequest) : (stripped r).kind = r.kind := by
  cases r <;> rfl

/-! ## Both clean alike -/

theorem phraseBuilder_strip (name pre s : Str) :
    Worker.phraseBuilder name pre (Py.strip s) = Worker.phraseBuilder name pre s := by
  have hnil : s = [] ∨ Py.strip s = [] ↔ Py.strip s = [] :=
    or_iff_right_of_imp fun h => by rw [h]; rfl
  simp only [Worker.phraseBuilder, Py.strip_strip, or_self, hnil]

/-- The builders do not see whether the slots have been cleaned. -/
theorem builder_stripped (T : Templates) (r : PromptRequest) :
    builder T (stripped r) = builder T r := by
  cases r with
  | detection categories =>
    have hkept : ∀ s ∈ (categories.filter fun c => Py.strip c ≠ []).map Py.strip,
        s ≠ [] ∧ Py.strip s = s := by
      intro s hs
      obtain ⟨c, hc, rfl⟩ := List.mem_map.mp hs
      exact ⟨by simpa using (List.mem_filter.mp hc).2, Py.strip_strip c⟩
    simp only [stripped, builder, Worker.detectCategories, categories_eq_self hkept]
  | sceneText => rfl
  | guiBox description => exact phraseBuilder_strip _ _ description
  | phraseSingle s | phraseMulti s | textGrounding s | point s => exact phraseBuilder_strip _ _ s

theorem cleanCategories_str (categories : List Str) :
    Worker.cleanCategories (categories.map .str) =
      (categories.filter fun c => Py.strip c ≠ []).map Py.strip := by
  induction categories with
  | nil => rfl
  | cons c cs ih =>
    rw [Worker.cleanCategories] at ih ⊢
    by_cases hc : Py.strip c = []
    · simp [hc, ih]
    · simp [hc, ih]

/-! ## Constructors against builders -/

theorem slotRequest_eq_ok_iff {what task field s : Str} {request : Dict} :
    Worker.slotRequest what task field (.str s) = .ok request ↔
      Py.strip s ≠ [] ∧ request = [("task".toList, .str task), (field, .str (Py.strip s))] := by
  by_cases hs : Py.strip s = []
  · simp [Worker.slotRequest, Worker.cleanSlot, hs, bind, Except.bind]
  · simp [Worker.slotRequest, Worker.cleanSlot, hs, bind, Except.bind, pure, Except.pure, eq_comm]

theorem exists_phraseBuilder_iff {name pre s : Str} :
    (∃ prompt, Worker.phraseBuilder name pre s = .ok prompt) ↔ Py.strip s ≠ [] := by
  rw [← phraseBuilder_strip, Worker.phraseBuilder]
  by_cases hs : Py.strip s = [] <;> simp [hs]

/-- A constructor makes the request with the clean slots, where the builder makes a prompt. -/
theorem typedRequest_eq_ok_iff (T : Templates) {r : PromptRequest} {request : Dict} :
    typedRequest r = .ok request ↔
      (∃ prompt, builder T r = .ok prompt) ∧
        request = Edge.promptRequest.members (stripped r) := by
  cases r with
  | detection categories =>
    simp only [typedRequest, builder, Worker.reqDetection, Worker.detectCategories,
      cleanCategories_str, stripped]
    generalize (categories.filter fun c => Py.strip c ≠ []).map Py.strip = cats
    by_cases hcats : cats = []
    · simp [hcats]
    · simp only [if_neg hcats, Except.ok.injEq, exists_eq', true_and]
      exact eq_comm
  | sceneText =>
    simp only [typedRequest, builder, Except.ok.injEq, exists_eq', true_and]
    exact eq_comm
  | guiBox description =>
    exact slotRequest_eq_ok_iff.trans (and_congr_left' exists_phraseBuilder_iff.symm)
  | phraseSingle s | phraseMulti s | textGrounding s | point s =>
    exact slotRequest_eq_ok_iff.trans (and_congr_left' exists_phraseBuilder_iff.symm)

/-- **A typed constructor stands for its builder**, whatever the templates: both object to the
    same slots, and what the constructor makes is read as a request, and compiled, if at all, to
    what the builder makes of the slots as they were given. -/
theorem typed_request_agrees (T : Templates) (nfc : Str → Str) (r : PromptRequest) :
    ((∃ request, typedRequest r = .ok request) ↔ ∃ prompt, builder T r = .ok prompt) ∧
    ∀ request, typedRequest r = .ok request →
      ∃ q, Edge.promptRequest.codec.parse (.obj request) = some q ∧ q.kind = r.kind ∧
        ∀ prompt task, Edge.compile T nfc q = .ok (prompt, task) →
          builder T r = .ok prompt ∧ task = r.kind.wireName := by
  constructor
  · simp only [typedRequest_eq_ok_iff T, exists_and_left, exists_eq, and_true]
  · intro request h
    obtain ⟨-, rfl⟩ := (typedRequest_eq_ok_iff T).mp h
    refine ⟨stripped r, ?_, stripped_kind r, fun prompt task hcompile => ?_⟩
    · exact (Edge.promptRequest.codec.parse_write _).trans (Edge.readBack_promptRequest _)
    · obtain ⟨ha, rfl, rfl⟩ := (Edge.compile_eq_ok_iff _ _).mp hcompile
      have hassemble := (Edge.assemble_eq_ok_iff T nfc).mpr ⟨ha.categories_ok, ha.slots_ok, rfl⟩
      rw [← builder_stripped, stripped_kind]
      exact ⟨(builder_of_assemble hassemble).1, rfl⟩

/-! ## The presets -/

def isAscii (s : Str) : Bool := s.all fun c => c.toNat < 128

/-- The edge takes the preset as it is, for this prompt. The prompt is given apart from the
    request, as the lists of prompts in the source are apart from the lists of presets. -/
def Serves (nfc : Str → Str) (p : Preset) (prompt : Str) : Prop :=
  ∃ q mode, Edge.promptRequest.codec.parse (.obj p.request) = some q ∧
    Edge.generationMode.parse (.str p.generation_mode) = some mode ∧
    Edge.compile Edge.templates nfc q = .ok (prompt, q.kind.wireName)

theorem compile_of_ascii {T : Templates} {nfc : Str → Str}
    (hnfc : ∀ s, isAscii s = true → nfc s = s) {q : PromptRequest} {p : Str × Str}
    (hascii : q.slots.all isAscii = true) (h : Edge.compile T id q = .ok p) :
    Edge.compile T nfc q = .ok p := by
  obtain ⟨ha, hp⟩ := (Edge.compile_eq_ok_iff T id).mp h
  refine (Edge.compile_eq_ok_iff T nfc).mpr ⟨⟨ha.categories_ok, fun s hs => ?_, ha.length_le⟩, hp⟩
  exact { ha.slots_ok s hs with normal := hnfc s (List.all_eq_true.mp hascii s hs) }

set_option maxRecDepth 2000 in
/-- **The presets are the prompts**: of the same rank, and of the same name. -/
theorem presets_serve {nfc : Str → Str}
    (hnfc : ∀ s, isAscii s = true → nfc s = s) :
    (∃ presets prompts, Worker.dronePresetsRanked = .ok presets ∧
      Worker.dronePromptsRanked Edge.templates = .ok prompts ∧
      List.Forall₂ (Serves nfc) presets prompts) ∧
    ∃ presets prompts, Worker.householdPresets = .ok presets ∧
      Worker.householdPrompts Edge.templates = .ok prompts ∧
      List.Forall₂ (fun p e => p.label = e.1 ∧ Serves nfc p e.2) presets prompts := by
  have hserves : ∀ {p : Preset} {prompt : Str} {q mode},
      Edge.promptRequest.codec.parse (.obj p.request) = some q →
      Edge.generationMode.parse (.str p.generation_mode) = some mode →
      q.slots.all isAscii = true →
      Edge.compile Edge.templates id q = .ok (prompt, q.kind.wireName) → Serves nfc p prompt :=
    fun hq hmode hascii hcompile => ⟨_, _, hq, hmode, compile_of_ascii hnfc hascii hcompile⟩
  -- each preset is made, read and compiled, with nothing to normalise
  constructor
  · refine ⟨_, _, rfl, rfl, ?_⟩
    repeat' first
      | exact .nil
      | refine .cons (hserves rfl rfl rfl rfl) ?_
  · refine ⟨_, _, rfl, rfl, ?_⟩
    repeat' first
      | exact .nil
      | refine .cons ⟨rfl, hserves rfl rfl rfl rfl⟩ ?_

end LocateAnything.Bridge
