import LocateAnything.Edge.PromptValidator
import LocateAnything.Worker.Inference
import LocateAnything.Lib.Words

/-!
# The compiled prompt determines the request

What the edge compiles, the worker reads back: `classify_prompt` finds the template, and what
stands behind the template's prefix and in front of the period is the slot, or the categories,
split at `</c>`. The worker is sent the task beside the prompt, and for all but pointing it
does not look into the prompt at all. But the two must not disagree, and a sentence that could
have come of two requests would have the model answer one of them.

Two facts carry it: no prefix of a template is a prefix of another (`prefixes_apart`), and the
separator's `<` does not come back inside it, so a join cannot make or move a copy of it
(`Words.splitWord_intercalate`). The second is needed because a category may hold pieces of
the separator: `</c` in front of the separator and `/c>` behind it look as if there were other
copies.
-/

set_option autoImplicit false

namespace LocateAnything.Bridge

open LocateAnything.Edge LocateAnything.Worker LocateAnything.Words

/-- The boot drift check, on the tables as they stand. -/
theorem templates_agree : Edge.templates = Worker.templates := rfl

/-! ## The templates are told apart -/

/-- The sentences for one instance and for several differ late, those for detection and for
    several in the form of one verb. -/
theorem prefixes_apart {k k' : TemplateKind} (h : k ≠ k') :
    ¬ Templates.slotPrefix Edge.templates k <+: Templates.slotPrefix Edge.templates k' := by
  have all : ∀ k ∈ TemplateKind.all, ∀ k' ∈ TemplateKind.all, k ≠ k' →
      ¬ Templates.slotPrefix Edge.templates k <+: Templates.slotPrefix Edge.templates k' := by
    decide +kernel
  exact all k (by cases k <;> decide) k' (by cases k' <;> decide) h

theorem isPrefixOf_append_eq_false {k k' : TemplateKind} (h : k ≠ k') (x : Str) :
    (Templates.slotPrefix Edge.templates k).isPrefixOf
      (Templates.slotPrefix Edge.templates k' ++ x) = false := by
  rw [Bool.eq_false_iff, ne_eq, List.isPrefixOf_iff_prefix]
  intro hp
  rcases List.prefix_or_prefix_of_prefix hp (List.prefix_append _ x) with hp | hp
  · exact prefixes_apart h hp
  · exact prefixes_apart (Ne.symm h) hp

theorem isPrefixOf_append_self (k : TemplateKind) (x : Str) :
    (Templates.slotPrefix Edge.templates k).isPrefixOf
      (Templates.slotPrefix Edge.templates k ++ x) = true := by
  rw [List.isPrefixOf_iff_prefix]; exact List.prefix_append _ _

/-- The one template without a slot is a sentence that no other begins with. -/
theorem ne_sceneText {k : TemplateKind} (h : k ≠ .sceneText) (x : Str) :
    Templates.slotPrefix Edge.templates k ++ x ≠ Edge.templates.scene_text_exact :=
  fun heq => prefixes_apart h ⟨x, heq⟩

theorem classifyPrompt_append {k : TemplateKind} (h : k ≠ .sceneText) (x : Str) :
    classifyPrompt (Templates.slotPrefix Edge.templates k ++ x) = .ok k := by
  have hself := isPrefixOf_append_self k x
  have hother := fun k' (hk : k' ≠ k) => isPrefixOf_append_eq_false hk x
  have hscene := ne_sceneText h x
  have hd := hother .detection
  have hs := hother .phraseSingle
  have hm := hother .phraseMulti
  have ht := hother .textGrounding
  have hg := hother .guiBox
  rw [classifyPrompt, ← templates_agree, if_neg hscene]
  simp only [Templates.slotPrefix] at hself hd hs hm ht hg
  -- the prefixes are tried in this order, and those in front do not fit
  cases k with
  | sceneText => exact absurd rfl h
  | detection => simp only [Templates.slotPrefix, hself, if_true]
  | phraseSingle => simp only [Templates.slotPrefix, hself, hd (by decide), if_true,
      Bool.false_eq_true, if_false]
  | phraseMulti => simp only [Templates.slotPrefix, hself, hd (by decide), hs (by decide), if_true,
      Bool.false_eq_true, if_false]
  | textGrounding => simp only [Templates.slotPrefix, hself, hd (by decide), hs (by decide),
      hm (by decide), if_true, Bool.false_eq_true, if_false]
  | guiBox => simp only [Templates.slotPrefix, hself, hd (by decide), hs (by decide),
      hm (by decide), ht (by decide), if_true, Bool.false_eq_true, if_false]
  | point => simp only [Templates.slotPrefix, hself, hd (by decide), hs (by decide),
      hm (by decide), ht (by decide), hg (by decide), if_true, Bool.false_eq_true, if_false]

/-! ## Reading the slots back -/

/-- The prompt without its template's prefix and its period. -/
def body (k : TemplateKind) (prompt : Str) : Str :=
  dropPeriod (prompt.drop (Templates.slotPrefix Edge.templates k).length)

theorem dropPeriod_append (s : Str) : dropPeriod (s ++ ['.']) = s := by
  have : ['.'].isSuffixOf (s ++ ['.']) = true :=
    List.isSuffixOf_iff_suffix.mpr (List.suffix_append _ _)
  rw [dropPeriod, if_pos this, List.dropLast_concat]

/-- What stands between the prefix and the period. -/
theorem body_render {r : PromptRequest} (h : r ≠ .sceneText) :
    body r.kind (render Edge.templates r)
      = List.intercalate Edge.templates.category_separator r.slots := by
  rw [body, render_eq _ h, List.drop_left, dropPeriod_append]

variable {nfc : Str → Str}

/-- No accepted category holds the separator, so the pieces between its copies are the
    categories. -/
theorem splitWord_body {r : PromptRequest} (h : Accepted Edge.templates nfc r)
    (hne : r.slots ≠ []) :
    splitWord Edge.templates.category_separator
      (List.intercalate Edge.templates.category_separator r.slots) = r.slots := by
  have hsep : Edge.templates.category_separator = ['<', '/', 'c', '>'] := by decide
  have hno : ∀ s ∈ r.slots, ¬ ['<', '/', 'c', '>'] <:+: s :=
    fun s hs => hsep ▸ (h.slots_ok s hs).no_separator
  rw [hsep]
  exact splitWord_intercalate (by decide) hne hno

theorem slots_ne_nil {r : PromptRequest} (h : Accepted Edge.templates nfc r)
    (hs : r ≠ .sceneText) : r.slots ≠ [] := by
  cases r with
  | detection c => exact (h.categories_ok c rfl).1
  | sceneText => exact absurd rfl hs
  | phraseSingle s | phraseMulti s | textGrounding s | guiBox s | point s =>
    exact List.cons_ne_nil _ _

theorem classifyPrompt_render (r : PromptRequest) :
    classifyPrompt (render Edge.templates r) = .ok r.kind := by
  by_cases h : r = .sceneText
  · subst h
    show classifyPrompt Edge.templates.scene_text_exact = .ok .sceneText
    rw [classifyPrompt, ← templates_agree, if_pos rfl]
  · rw [render_eq _ h]
    exact classifyPrompt_append (fun hk => h (PromptRequest.kind_eq_sceneText.mp hk)) _

/-- A request is its task and its slots. -/
theorem eq_of_kind_of_slots {r r' : PromptRequest} (hk : r.kind = r'.kind)
    (hs : r.slots = r'.slots) : r = r' := by
  cases r <;> cases r' <;>
    simp_all [PromptRequest.kind, PromptRequest.slots]

/-- `point_phrase` strips what it finds, which leaves an accepted phrase as it is. -/
theorem pointPhrase_render {phrase : Str} (h : Accepted Edge.templates nfc (.point phrase)) :
    pointPhrase (render Edge.templates (.point phrase)) = .ok phrase := by
  have hns : PromptRequest.point phrase ≠ .sceneText := by simp
  have hbody := body_render hns
  have hpre := isPrefixOf_append_self .point
    (List.intercalate Edge.templates.category_separator (PromptRequest.point phrase).slots ++ ['.'])
  have hne : phrase ≠ [] := (h.slots_ok phrase (by simp [PromptRequest.slots])).ne_nil
  rw [← show (PromptRequest.point phrase).kind = .point from rfl, ← render_eq _ hns] at hpre
  rw [PromptRequest.slots, List.intercalate_singleton] at hbody
  rw [pointPhrase, ← templates_agree]
  simp only [PromptRequest.kind, Templates.slotPrefix, body] at hpre hbody
  simp only [hpre, hbody, if_true, if_neg hne]

/-- **The compiled prompt determines the request.** The worker classifies it as the task that was
    compiled; prefix and period removed, it is the slot of a single-slot task, and the categories
    of a detection joined by the separator; the pointing phrase is recovered and labels the bare
    points; and no other request compiles to it. -/
theorem prompt_determines_request (nfc : Str → Str) (r : PromptRequest) (prompt task : Str)
    (h : compile Edge.templates nfc r = .ok (prompt, task)) :
    (classifyPrompt prompt).map TemplateKind.wireName = .ok task ∧
    Templates.slotPrefix Edge.templates r.kind <+: prompt ∧
    (∀ slot, r.slots = [slot] → body r.kind prompt = slot) ∧
    (∀ phrase, r = .point phrase → pointPhrase prompt = .ok phrase ∧
      ∀ f answer, run f prompt .point answer = .ok (mapAnswer f .point (some phrase) answer)) ∧
    (∀ cats, r = .detection cats →
      splitWord Edge.templates.category_separator (body .detection prompt) = cats) ∧
    ∀ r', compile Edge.templates nfc r' = .ok (prompt, task) → r' = r := by
  obtain ⟨hacc, rfl, rfl⟩ := (compile_eq_ok_iff _ _).mp h
  have hslots : ∀ q : PromptRequest, Accepted Edge.templates nfc q → q ≠ .sceneText →
      splitWord Edge.templates.category_separator
        (body q.kind (render Edge.templates q)) = q.slots := by
    intro q hq hne
    rw [body_render hne]
    exact splitWord_body hq (slots_ne_nil hq hne)
  refine ⟨by rw [classifyPrompt_render]; rfl, ?_, ?_, ?_, ?_, ?_⟩
  · by_cases hne : r = .sceneText
    · rw [hne]; exact List.prefix_refl _
    · rw [render_eq _ hne]; exact List.prefix_append _ _
  · intro slot hslot
    have hne : r ≠ .sceneText := by rintro rfl; exact absurd hslot (by simp [PromptRequest.slots])
    rw [body_render hne, hslot, List.intercalate_singleton]
  · rintro phrase rfl
    have hphrase := pointPhrase_render hacc
    refine ⟨hphrase, fun f answer => ?_⟩
    simp only [run, hphrase]
    rfl
  · rintro cats rfl
    exact hslots _ hacc (by simp)
  -- the wire name gives the kind, and the kind the prefix to take off
  · intro r' h'
    obtain ⟨hacc', hrender, hwire⟩ := (compile_eq_ok_iff _ _).mp h'
    have hkind : r'.kind = r.kind := (TemplateKind.wireName_inj hwire).symm
    refine eq_of_kind_of_slots hkind ?_
    by_cases hne : r = .sceneText
    · have hne' : r' = .sceneText := by
        rwa [hne, PromptRequest.kind_eq_sceneText.mpr rfl, PromptRequest.kind_eq_sceneText] at hkind
      rw [hne, hne']
    · have hne' : r' ≠ .sceneText := by
        rwa [ne_eq, ← PromptRequest.kind_eq_sceneText, hkind, PromptRequest.kind_eq_sceneText]
      rw [← hslots r' hacc' hne', ← hslots r hacc hne, hkind, hrender]

/-- Categories that hold pieces of the separator. -/
def pieces : PromptRequest := .detection ["</c".toList, "/c>".toList]

theorem prompt_determines_request_pieces :
    splitWord Edge.templates.category_separator
        (body .detection (render Edge.templates pieces))
      = ["</c".toList, "/c>".toList] :=
  (prompt_determines_request id pieces (render Edge.templates pieces)
    TemplateKind.detection.wireName (by decide +kernel)).2.2.2.2.1 _ rfl

end LocateAnything.Bridge
