import LocateAnything.Edge.PromptNfc
import LocateAnything.Worker.Attribution
import LocateAnything.Worker.Truncation

/-!
# Can an accepted request be answered?

The model labels its boxes with the slots of the request, so every slot the edge accepts must
come back through the label expression `[^<]*?` of the worker. The edge forbids `</c>` in a
slot and admits every other `<`; the expression admits none. Without a `<` the two agree: what
Rust trims and rejects covers what Python strips (`strip_of_slotOk`), and the answer is read
back box by box.

What the model answers is not known, so the question is about answers in the format it was
trained for, all of them: any groups over the request's slots, with any blocks (`Answerable`).
One answer that cannot be read is enough against a slot, and the proof uses the shortest, a
single group with a single box: its label cannot be the slot, because no label the expression
reads has a `<` in it (`lt_notMem_label`).
-/

set_option autoImplicit false

namespace LocateAnything.Bridge

open LocateAnything.Edge LocateAnything.Worker LocateAnything.Words LocateAnything.Regex

/-! ## Slots as labels -/

/-- A slot without `<` is a label the worker reads back. -/
def labelOf {nfc : Str → Str} {s : Str} {fc : Bool} (h : SlotOk Edge.templates nfc s fc)
    (hlt : '<' ∉ s) : Label := ⟨s, h.ne_nil, hlt, strip_of_trim h.trimmed h.no_control⟩

/-! ## Answers over a list of slots -/

/-- A group of an answer: a slot of the request and the blocks the model writes for it. A
    group without blocks would be no closed group, and none is written. -/
structure SlotGroup where
  slot : Str
  blocks : List (TrainedBlock 4)
  ne_nil : blocks ≠ []

def SlotGroup.text (g : SlotGroup) : Str := refTag g.slot ++ blocksText g.blocks

/-- The answer in the trained format. -/
def answerText (gs : List SlotGroup) : Str := gs.flatMap SlotGroup.text ++ imEnd

/-- The boxes of the answer, in order, each labelled with its slot. -/
def answerBoxes (w h : Nat) (gs : List SlotGroup) : List Detection :=
  gs.flatMap fun g => g.blocks.filterMap fun b =>
    b.coords?.map fun c => c.toDetection g.slot w h

/-- The worker reads the answer as it was meant: with the boxes that were written, each
    labelled with its slot, and nothing dropped. An answer of abstentions only is one that
    abstains. -/
def ReadAsMeant (f : Frame) (prompt : Str) (task : TemplateKind) (gs : List SlotGroup) : Prop :=
  ∃ r, run f prompt task (answerText gs) = .ok r ∧
    r.boxes = answerBoxes f.width f.height gs ∧ r.points = [] ∧ r.deviations_dropped = 0 ∧
    r.kind = if answerBoxes f.width f.height gs = [] then .abstained else .boxes

/-- Every answer over the slots is read as it was meant. The slots may come in any order,
    repeatedly or not at all; the model is free in that. -/
def Answerable (f : Frame) (prompt : Str) (task : TemplateKind) (slots : List Str) : Prop :=
  ∀ gs : List SlotGroup, (∀ g ∈ gs, g.slot ∈ slots) → ReadAsMeant f prompt task gs

theorem run_of_box {task : TemplateKind} (ht : expectedShape task = .box) (f : Frame)
    (prompt answer : Str) : run f prompt task answer = .ok (mapAnswer f task none answer) := by
  cases task <;> first | rfl | exact absurd ht (by decide)

/-! ## Without `<` -/

theorem exists_groups (gs : List SlotGroup) (h : ∀ g ∈ gs, ∃ l : Label, l.text = g.slot)
    (w hgt : Nat) :
    ∃ gs' : List Group, answerText gs = groupsText gs' ++ imEnd ∧
      detections w hgt (items gs') = answerBoxes w hgt gs := by
  induction gs with
  | nil => exact ⟨[], rfl, rfl⟩
  | cons g gs ih =>
    obtain ⟨gs', htext, hboxes⟩ := ih fun x hx => h x (List.mem_cons_of_mem _ hx)
    obtain ⟨l, hl⟩ := h g (List.mem_cons_self ..)
    refine ⟨⟨l, g.blocks, g.ne_nil⟩ :: gs', ?_, ?_⟩
    · rw [answerText] at htext
      rw [answerText, List.flatMap_cons, List.append_assoc, htext, groupsText_cons,
        List.append_assoc, SlotGroup.text, Group.text, hl]
    · have hcons : answerBoxes w hgt (g :: gs) = (g.blocks.filterMap fun b =>
          b.coords?.map fun c => c.toDetection g.slot w hgt) ++ answerBoxes w hgt gs :=
        List.flatMap_cons
      rw [items_cons, detections_append, hboxes, hcons, ← hl, detections, Group.items,
        List.filterMap_map]
      rfl

theorem answerable_of_no_lt {nfc : Str → Str} {slots : List Str} {fc : Bool}
    (hslots : ∀ s ∈ slots, SlotOk Edge.templates nfc s fc) (hlt : ∀ s ∈ slots, '<' ∉ s)
    {task : TemplateKind} (ht : expectedShape task = .box) (f : Frame) (prompt : Str) :
    Answerable f prompt task slots := by
  intro gs hgs
  have hlabel : ∀ g ∈ gs, ∃ l : Label, l.text = g.slot :=
    fun g hg => ⟨labelOf (hslots _ (hgs g hg)) (hlt _ (hgs g hg)), rfl⟩
  obtain ⟨gs', htext, hboxes⟩ := exists_groups gs hlabel f.width f.height
  have hparse : parseAnswer (answerText gs) f.width f.height none
      = ⟨answerBoxes f.width f.height gs, 0, [], 0, 0⟩ := by
    rw [htext, parseAnswer_groups gs' (v := imEnd) (by decide), hboxes]
  obtain ⟨hkind, hbs, hps, hdropped⟩ := mapAnswer_boxes f task none (answerText gs) ht hparse
  exact ⟨_, run_of_box ht f prompt _, hbs, hps, hdropped, hkind⟩

/-! ## With `<` -/

theorem lt_notMem_label {answer : Str} {w h : Nat} :
    ∀ d ∈ (parseBoxes answer w h).1, '<' ∉ d.label := by
  intro d hd
  rw [parseBoxes_eq] at hd
  obtain ⟨p, hp, rfl⟩ := List.mem_map.mp hd
  obtain ⟨hm, -, -⟩ := mem_labelledBlocks.mp hp
  obtain ⟨r, t, -, hr⟩ := exists_run_of_mem hm
  intro hlt
  have := Py.mem_of_mem_strip (s := p.1.group labelGroup) hlt
  rw [hr, group_label] at this
  exact r.label_ok this

theorem mapAnswer_boxes_subset {f : Frame} {task : TemplateKind} {pl : Option Str}
    {answer : Str} :
    ∀ d ∈ (mapAnswer f task pl answer).boxes, d ∈ (parseBoxes answer f.width f.height).1 := by
  intro d hd
  simp only [mapAnswer] at hd
  split at hd
  · cases hs : expectedShape task with
    | box => rw [hs] at hd; exact hd
    | point => rw [hs] at hd; exact absurd hd List.not_mem_nil
  · split at hd <;> exact absurd hd (by simp)

/-- Four zeros. -/
def zeroBox : TrainedBlock 4 :=
  .coords ⟨[.ofNat 0, .ofNat 0, .ofNat 0, .ofNat 0], rfl, by decide⟩

theorem not_answerable_of_lt {slots : List Str} {s : Str} (hs : s ∈ slots) (hlt : '<' ∈ s)
    {task : TemplateKind} (ht : expectedShape task = .box) (f : Frame) (prompt : Str) :
    ¬ Answerable f prompt task slots := by
  intro hans
  obtain ⟨r, hrun, hboxes, -⟩ := hans [⟨s, [zeroBox], by simp⟩] (by simpa using hs)
  rw [run_of_box ht] at hrun
  rw [← Except.ok.inj hrun] at hboxes
  have hmem := @mapAnswer_boxes_subset f task none (answerText [⟨s, [zeroBox], by simp⟩])
  rw [hboxes] at hmem
  exact lt_notMem_label _ (hmem _ List.mem_cons_self) hlt

/-- **Accepted slots are answerable exactly when none holds a `<`.** -/
theorem answerable_iff (nfc : Str → Str) (slots : List Str) (template task : TemplateKind)
    (field : Str) (forbidComma : Bool) (f : Frame) (prompt : Str)
    (haccepted : ∀ s ∈ slots,
      validateSlot Edge.templates nfc s template field forbidComma = .ok ())
    (hbox : expectedShape task = .box) :
    Answerable f prompt task slots ↔ ∀ s ∈ slots, '<' ∉ s := by
  constructor
  · intro hans s hs hlt
    exact not_answerable_of_lt hs hlt hbox f prompt hans
  · intro hlt
    exact answerable_of_no_lt
      (fun s hs => (validateSlot_eq_ok_iff _ _).mp (haccepted s hs)) hlt hbox f prompt

/-- `a<b` is accepted, and its box comes back as a deviation: nothing is found for the slot. -/
theorem lt_slot_not_answered :
    validateSlot Edge.templates fragment.nfc "a<b".toList .phraseSingle "phrase".toList false
      = .ok () ∧
    (run vga "Locate a single instance that matches the following description: a<b.".toList
        .phraseSingle "<ref>a<b</ref><box><0><0><0><0></box><|im_end|>".toList).map
      (fun r => (r.kind, r.boxes, r.deviations_dropped)) = .ok (.deviation, [], 1) ∧
    ¬ Answerable vga "Locate a single instance that matches the following description: a<b.".toList
      .phraseSingle ["a<b".toList] := by
  refine ⟨by decide +kernel, by decide +kernel, ?_⟩
  exact not_answerable_of_lt List.mem_cons_self (by decide) rfl _ _

/-- `traffic light` is. -/
theorem answerable_traffic_light :
    Answerable vga "Locate all the instances that matches the following description: traffic light.".toList
      .detection ["traffic light".toList] :=
  (answerable_iff fragment.nfc ["traffic light".toList] .detection .detection (categoryField 0)
    true vga _ (by decide +kernel) rfl).mpr (by decide)

end LocateAnything.Bridge
