import LocateAnything.Edge.PromptValidator
import LocateAnything.Lib.Nfc

/-!
# Is the compiled prompt in NFC?

`validate_slot` checks every slot alone. In the prompt each slot stands behind a space or a
`>` and in front of a `.` or a `<`, and normalisation of the whole is normalisation piece by
piece except at one junction: `>` and a combining solidus (U+0338) at the front of the next
category compose to `≯` (U+226F), which takes the separator apart.

The tables of the Unicode standard are a parameter. They change from version to version, and
the proof does not need them: `Standard` lists what the junctions have to know, which is that
ASCII is in itself normal, that nothing composes with a space, and that `>` composes with one
character only. A border between two pieces is a place where normalisation of the whole is
normalisation of the pieces, and with the list every junction but one is such a border. The
theorem is an equivalence since a slot is allowed to begin with a combining character, and an
accent there does no harm.
-/

set_option autoImplicit false

namespace LocateAnything.Edge

open LocateAnything.Nfc

/-- U+0338 COMBINING LONG SOLIDUS OVERLAY -/
def solidus : Char := '\u0338'

/-- U+226F NOT GREATER-THAN -/
def notGreater : Char := '\u226F'

/-- Facts of the Unicode standard about ASCII, `>` and U+0338, and no others: tables that
    satisfy them may decompose, order and compose the remaining characters as they like. -/
structure Standard (t : Tables Char) : Prop where
  ascii_decomp : ∀ c : Char, c.toNat < 128 → t.decomp c = [c]
  ascii_starter : ∀ c : Char, c.toNat < 128 → t.ccc c = 0
  ascii_not_second : ∀ c : Char, c.toNat < 128 → ∀ l, t.primary l c = none
  composite_not_ascii : ∀ a b c, t.primary a b = some c → 128 ≤ c.toNat
  space_not_first : ∀ c, t.primary ' ' c = none
  gt_first : ∀ c, c ≠ solidus → t.primary '>' c = none
  gt_solidus : t.primary '>' solidus = some notGreater
  solidus_class : t.ccc solidus = 1
  solidus_not_composite : ∀ a b, t.primary a b ≠ some solidus

variable {t : Tables Char}

theorem Standard.border (ht : Standard t) {c : Char} (h : c.toNat < 128) : t.Border c :=
  ⟨ht.ascii_decomp c h, ht.ascii_starter c h, ht.ascii_not_second c h⟩

/-- A text that is known is ASCII by computation. -/
theorem ascii_of_all {s : Str} (h : (s.all fun c => decide (c.toNat < 128)) = true) :
    ∀ c ∈ s, c.toNat < 128 := by
  intro c hc
  exact of_decide_eq_true (List.all_eq_true.mp h c hc)

theorem Standard.nfc_ascii (ht : Standard t) {s : Str} (h : ∀ c ∈ s, c.toNat < 128) :
    t.nfc s = s :=
  Tables.nfc_borders s fun c hc => ht.border (h c hc)

/-! ## The junctions -/

/-- The categories after the first, each behind its separator, and the period. The text is
    taken from the second category on because that is where the junctions repeat. -/
def restText (cats : List Str) : Str :=
  cats.flatMap (fun c => templates.category_separator ++ c) ++ ['.']

theorem intercalate_cons (c : Str) (cats : List Str) :
    List.intercalate templates.category_separator (c :: cats) ++ ['.'] = c ++ restText cats := by
  induction cats generalizing c with
  | nil => simp [restText]
  | cons d cats ih =>
    have := ih d
    simp only [restText] at this ⊢
    rw [List.intercalate_cons_cons, List.append_assoc, List.append_assoc, this, List.flatMap_cons]
    simp only [List.append_assoc]

theorem separator_eq : templates.category_separator = ['<', '/', 'c', '>'] := by decide

theorem restText_head (cats : List Str) : ∃ c s, restText cats = c :: s ∧ c.toNat < 128 := by
  cases cats with
  | nil => exact ⟨'.', [], rfl, by decide⟩
  | cons d cats =>
    refine ⟨'<', ['/', 'c', '>'] ++ (d ++ restText cats), ?_, by decide⟩
    rw [restText, List.flatMap_cons, separator_eq, restText]
    simp [separator_eq]

theorem nfc_append_restText (ht : Standard t) (s : Str) (cats : List Str) :
    t.nfc (s ++ restText cats) = t.nfc s ++ t.nfc (restText cats) := by
  obtain ⟨c, r, hr, hc⟩ := restText_head cats
  rw [hr]
  exact Tables.nfc_append_border (ht.border hc) s r

theorem restText_cons (d : Str) (cats : List Str) :
    restText (d :: cats) = ['<', '/', 'c'] ++ '>' :: (d ++ restText cats) := by
  rw [restText, List.flatMap_cons, separator_eq, restText]
  simp [separator_eq]

/-- **The junction `</c>` — category**: it stays exactly when the category does not begin with
    U+0338. -/
theorem nfc_restText_iff (ht : Standard t) (cats : List Str)
    (hcats : ∀ c ∈ cats, t.nfc c = c) :
    t.nfc (restText cats) = restText cats ↔ ∀ c ∈ cats, c.head? ≠ some solidus := by
  induction cats with
  | nil =>
    have : t.nfc (restText []) = restText [] := ht.nfc_ascii (ascii_of_all rfl)
    simp [this]
  | cons d cats ih =>
    have hgt : t.Border '>' := ht.border (by decide)
    have hsep : t.nfc ['<', '/', 'c'] = ['<', '/', 'c'] :=
      ht.nfc_ascii (ascii_of_all rfl)
    have hsplit : t.nfc (restText (d :: cats))
        = ['<', '/', 'c'] ++ (t.nfc ('>' :: d) ++ t.nfc (restText cats)) := by
      rw [restText_cons, Tables.nfc_append_border hgt, hsep, ← List.cons_append,
        nfc_append_restText ht]
    have hd := hcats d (by simp)
    have ih' := ih fun c hc => hcats c (List.mem_cons_of_mem _ hc)
    rw [List.forall_mem_cons, hsplit, restText_cons]
    -- only the `>` of the separator in front can compose with what a category starts with
    by_cases hhead : d.head? = some solidus
    · obtain ⟨y, v, hy, hne⟩ := Tables.nfc_cons_of_head?_eq hgt ht.gt_solidus
        (by rw [ht.solidus_class]; decide) ht.solidus_not_composite
        (fun a b h => absurd (ht.composite_not_ascii a b _ h) (by decide)) hd hhead
      constructor
      · intro heq
        have := List.append_cancel_left heq
        rw [hy, List.cons_append, List.cons.injEq] at this
        exact absurd this.1 hne
      · intro h
        exact absurd hhead h.1
    · have hkeep : t.nfc ('>' :: d) = '>' :: d :=
        Tables.nfc_cons_of_head?_ne hgt ht.gt_first ht.solidus_class ht.solidus_not_composite
          hd hhead
      rw [hkeep, List.append_cancel_left_eq, List.cons_append, List.cons.injEq,
        List.append_cancel_left_eq, ih']
      simp [hhead]

/-! ## The prompt -/

theorem slotPrefix_eq {k : TemplateKind} (h : k ≠ .sceneText) :
    ∃ p, Templates.slotPrefix templates k = p ++ [' '] ∧ ∀ c ∈ p, c.toNat < 128 := by
  refine ⟨(Templates.slotPrefix templates k).dropLast, ?_, ascii_of_all ?_⟩
  · cases k <;> first | exact absurd rfl h | rfl
  · cases k <;> first | exact absurd rfl h | rfl

theorem nfc_prefix (ht : Standard t) {k : TemplateKind} (h : k ≠ .sceneText) (s : Str) :
    t.nfc (Templates.slotPrefix templates k ++ s)
      = Templates.slotPrefix templates k ++ t.nfc s := by
  obtain ⟨p, hp, hascii⟩ := slotPrefix_eq h
  rw [hp, List.append_assoc, List.singleton_append,
    Tables.nfc_append_border (ht.border (by decide)), ht.nfc_ascii hascii,
    Tables.nfc_cons_of_inert (ht.border (by decide)) ht.space_not_first, List.append_assoc,
    List.singleton_append]

/-- **The compiled prompt is in NFC exactly when no category after the first begins with
    U+0338.** -/
theorem compiled_prompt_nfc_iff (t : Tables Char) (ht : Standard t) (r : PromptRequest)
    (prompt task : Str) (h : compile templates t.nfc r = .ok (prompt, task)) :
    t.nfc prompt = prompt ↔ ∀ s ∈ r.slots.tail, s.head? ≠ some solidus := by
  obtain ⟨hacc, rfl, rfl⟩ := (compile_eq_ok_iff _ _).mp h
  by_cases hne : r = .sceneText
  · subst hne
    have : t.nfc (render templates .sceneText) = render templates .sceneText :=
      ht.nfc_ascii (ascii_of_all rfl)
    simp [this, PromptRequest.slots]
  · have hk : r.kind ≠ .sceneText := fun hk => hne (PromptRequest.kind_eq_sceneText.mp hk)
    have hslots : r.slots ≠ [] := by
      cases r with
      | detection c => exact (hacc.categories_ok c rfl).1
      | sceneText => exact absurd rfl hne
      | phraseSingle s | phraseMulti s | textGrounding s | guiBox s | point s =>
        exact List.cons_ne_nil _ _
    obtain ⟨s, ss, hs⟩ := List.exists_cons_of_ne_nil hslots
    have hnormal : ∀ x ∈ s :: ss, t.nfc x = x := fun x hx => (hacc.slots_ok x (hs ▸ hx)).normal
    rw [render_eq _ hne, hs, intercalate_cons, nfc_prefix ht hk, nfc_append_restText ht,
      hnormal s (by simp), List.append_cancel_left_eq, List.append_cancel_left_eq, List.tail_cons]
    exact nfc_restText_iff ht ss fun x hx => hnormal x (List.mem_cons_of_mem _ hx)

/-! ## A category that begins with U+0338 -/

/-- The tables of the standard, cut down to U+0338, U+0301 and their composites with `>` and
    `e`. They are small enough to be computed with, and satisfy `Standard`. -/
def fragment : Tables Char where
  ccc c := if c = solidus then 1 else if c = '\u0301' then 230 else 0
  decomp c := if c = notGreater then ['>', solidus] else if c = 'é' then ['e', '\u0301'] else [c]
  primary a b :=
    if a = '>' ∧ b = solidus then some notGreater
    else if a = 'e' ∧ b = '\u0301' then some 'é'
    else none

theorem fragment_standard : Standard fragment := by
  have ascii_ne : ∀ {c d : Char}, c.toNat < 128 → 128 ≤ d.toNat → c ≠ d := by
    rintro c d hc hd rfl
    omega
  refine ⟨?_, ?_, ?_, ?_, ?_, ?_, by decide, by decide, ?_⟩
  · intro c hc
    simp only [fragment, if_neg (ascii_ne hc (d := notGreater) (by decide)),
      if_neg (ascii_ne hc (d := 'é') (by decide))]
  · intro c hc
    simp only [fragment, if_neg (ascii_ne hc (d := solidus) (by decide)),
      if_neg (ascii_ne hc (d := '\u0301') (by decide))]
  · intro c hc l
    simp only [fragment, ascii_ne hc (d := solidus) (by decide),
      ascii_ne hc (d := '\u0301') (by decide), and_false, if_false]
  · intro a b c h
    simp only [fragment] at h
    split at h
    · rw [← Option.some.inj h]; decide
    · split at h
      · rw [← Option.some.inj h]; decide
      · exact absurd h (by simp)
  · intro c
    simp [fragment]
  · intro c hc
    simp [fragment, hc]
  · intro a b h
    simp only [fragment] at h
    split at h
    · exact absurd (Option.some.inj h) (by decide)
    · split at h
      · exact absurd (Option.some.inj h) (by decide)
      · exact absurd h (by simp)

/-- The categories `e` and U+0338 `g`. -/
def solidusRequest : PromptRequest := .detection [['e'], [solidus, 'g']]

/-- The request is accepted and its prompt is not in NFC: the separator has lost its `>`. -/
theorem solidus_breaks_separator :
    compile templates fragment.nfc solidusRequest
      = .ok (render templates solidusRequest, TemplateKind.detection.wireName) ∧
    fragment.nfc (render templates solidusRequest)
      = templates.detection_prefix ++ ['e', '<', '/', 'c', notGreater, 'g', '.'] ∧
    fragment.nfc (render templates solidusRequest) ≠ render templates solidusRequest := by
  refine ⟨by decide +kernel, by decide +kernel, by decide +kernel⟩

/-- With the accent in place of the solidus the prompt stays as it is. -/
theorem compiled_prompt_nfc_acute :
    fragment.nfc (render templates (.detection [['é'], ['\u0301', 'g']]))
      = render templates (.detection [['é'], ['\u0301', 'g']]) :=
  (compiled_prompt_nfc_iff fragment fragment_standard (.detection [['é'], ['\u0301', 'g']]) _
    TemplateKind.detection.wireName (by decide +kernel)).mpr (by decide)

end LocateAnything.Edge
