import LocateAnything.Worker.Parsing
import LocateAnything.Worker.Prompts

/-!
# The tail of `LocateAnythingInference.run`

Everything between the model's answer and the `InferenceResult`: the three parser passes, the
point label recovered from the prompt, and the A.3 mapping to exactly one of `boxes`,
`points`, `abstained`, `model_deviation`.

What comes before (image decoding, the chat template, generation) produces the answer, the
size of the frame, its resize plan and the latency, and enters here as data.

The mapping is where an answer is judged. A task expects boxes or points; geometry of the
other shape is parsed all the same, in order to be counted. Three numbers decide: how much of
the expected shape there is, how much was dropped, and whether there was any geometry at all.
An answer with something usable is a success, whatever else is in it; one with geometry and
nothing usable deviates from what the model was trained to write; one with none says that
there is nothing to find.
-/

set_option autoImplicit false

namespace LocateAnything.Worker

open LocateAnything.Regex LocateAnything.Scan Py

/-- The geometry of a task. -/
inductive Shape where
  | box
  | point
  deriving DecidableEq, Repr

/-- `EXPECTED_SHAPE` -/
def expectedShape : TemplateKind → Shape
  | .point => .point
  | _ => .box

/-- `KIND_BOXES`, `KIND_POINTS`, `KIND_ABSTAINED`, `KIND_DEVIATION` -/
inductive Kind where
  | boxes
  | points
  | abstained
  | deviation
  deriving DecidableEq, Repr

structure ResizePlan where
  dst_w : Nat
  dst_h : Nat
  n_llm_tokens : Nat
  scale : ℚ
  deriving DecidableEq

/-- What `run` knows about a frame besides the answer. -/
structure Frame where
  width : Nat
  height : Nat
  plan : ResizePlan
  latency_ms : ℚ

structure InferenceResult where
  kind : Kind
  boxes : List Detection
  points : List Point
  deviation_message : Option Str
  raw_answer : Str
  deviations_dropped : Nat
  model_output_truncated : Bool
  latency_ms : ℚ
  image_size : Nat × Nat
  resize_plan : ResizePlan
  deriving DecidableEq

/-- What the three parsers report about one answer. -/
structure Tally where
  boxes : List Detection
  box_off : Nat
  points : List Point
  point_off : Nat
  malformed : Nat

/-- The three calls of `run`, in its order. -/
def parseAnswer (answer : Str) (imageWidth imageHeight : Nat) (pointLabel : Option Str) : Tally :=
  let b := parseBoxes answer imageWidth imageHeight
  let p := parsePoints answer imageWidth imageHeight pointLabel
  { boxes := b.1, box_off := b.2, points := p.1, point_off := p.2
    malformed := countMalformedGeometry answer }

/-- `valid_count` -/
def Tally.validCount (t : Tally) : Shape → Nat
  | .point => t.points.length
  | .box => t.boxes.length

/-- `dropped`: geometry of the other shape, off-contract geometry, malformed blocks. -/
def Tally.dropped (t : Tally) : Shape → Nat
  | .point => t.boxes.length + t.box_off + t.point_off + t.malformed
  | .box => t.points.length + t.point_off + t.box_off + t.malformed

/-- `any_geometry_block` -/
def Tally.anyGeometryBlock (t : Tally) : Bool :=
  !t.boxes.isEmpty || !t.points.isEmpty || t.box_off != 0 || t.point_off != 0 || t.malformed != 0

/-- `<|im_end|>` -/
def imEnd : Str := ['<', '|', 'i', 'm', '_', 'e', 'n', 'd', '|', '>']

/-- `not answer.endswith("<|im_end|>")`. An answer that the token limit has cut has no end
    marker. -/
def modelOutputTruncated (answer : Str) : Bool := !imEnd.isSuffixOf answer

def Shape.word : Shape → Str
  | .point => "point".toList
  | .box => "box".toList

def deviationMessage (task : TemplateKind) (dropped : Nat) : Str :=
  "model emitted geometry but zero valid ".toList ++ (expectedShape task).word ++
  "(s) for the '".toList ++ task.wireName ++ "' task: dropped ".toList ++ str dropped ++
  (" off-contract item(s) (geometry in the wrong shape for the task, geometry with no label, " ++
   "or malformed-arity blocks) and nothing usable remained. The verbatim model output is " ++
   "preserved in raw_text. This is a task->shape / labeling deviation from the trained output " ++
   "contract (empirically 0 across 3,444 trials at the trained sampling params).").toList

/-- The A.3 mapping from an answer to the result. The raw answer and whether it was cut are
    reported in every case. -/
def mapAnswer (f : Frame) (promptTask : TemplateKind) (pointLabel : Option Str) (answer : Str) :
    InferenceResult :=
  let t := parseAnswer answer f.width f.height pointLabel
  let expected := expectedShape promptTask
  let validKind := match expected with
    | .point => Kind.points
    | .box => Kind.boxes
  let validCount := t.validCount expected
  let dropped := t.dropped expected
  let resizePlan := { f.plan with scale := Binary64.pyRound f.plan.scale 4 }
  if validCount > 0 then
    { kind := validKind
      boxes := if validKind = .boxes then t.boxes else []
      points := if validKind = .points then t.points else []
      deviation_message := none
      raw_answer := answer
      deviations_dropped := dropped
      model_output_truncated := modelOutputTruncated answer
      latency_ms := f.latency_ms
      image_size := (f.width, f.height)
      resize_plan := resizePlan }
  else if t.anyGeometryBlock then
    { kind := .deviation
      boxes := []
      points := []
      deviation_message := some (deviationMessage promptTask dropped)
      raw_answer := answer
      deviations_dropped := dropped
      model_output_truncated := modelOutputTruncated answer
      latency_ms := f.latency_ms
      image_size := (f.width, f.height)
      resize_plan := resizePlan }
  else
    { kind := .abstained
      boxes := []
      points := []
      deviation_message := none
      raw_answer := answer
      deviations_dropped := 0
      model_output_truncated := modelOutputTruncated answer
      latency_ms := f.latency_ms
      image_size := (f.width, f.height)
      resize_plan := resizePlan }

/-- `run`, from the answer on. Only a pointing prompt can raise. -/
def run (f : Frame) (prompt : Str) (promptTask : TemplateKind) (answer : Str) :
    Except PromptError InferenceResult :=
  match promptTask with
  | .point => (pointPhrase prompt).map fun l => mapAnswer f promptTask (some l) answer
  | _ => .ok (mapAnswer f promptTask none answer)

/-! ## The mapping, by cases -/

/-- The code's disjunction over the parsers' counts, as one number: whatever is counted is
    either valid or dropped. -/
theorem Tally.anyGeometryBlock_iff (t : Tally) (e : Shape) :
    t.anyGeometryBlock = true ↔ 0 < t.validCount e + t.dropped e := by
  have hb : t.boxes.isEmpty = decide (t.boxes.length = 0) := by
    cases t.boxes <;> simp
  have hp : t.points.isEmpty = decide (t.points.length = 0) := by
    cases t.points <;> simp
  cases e <;>
    simp only [anyGeometryBlock, hb, hp, validCount, dropped, Bool.or_eq_true, bne_iff_ne,
      Bool.not_eq_true', decide_eq_false_iff_not] <;>
    omega

section Mapping
variable (f : Frame) (task : TemplateKind) (pl : Option Str) (answer : Str)

/-- **Abstention means that nothing at all was counted.** -/
theorem mapAnswer_abstained_iff :
    (mapAnswer f task pl answer).kind = .abstained ↔
      (parseAnswer answer f.width f.height pl).validCount (expectedShape task)
        + (parseAnswer answer f.width f.height pl).dropped (expectedShape task) = 0 := by
  have hany :=
    (parseAnswer answer f.width f.height pl).anyGeometryBlock_iff (expectedShape task)
  simp only [mapAnswer, gt_iff_lt]
  split
  · rename_i hv
    refine ⟨fun h => ?_, fun h => by omega⟩
    cases hs : expectedShape task <;> rw [hs] at h <;> exact absurd h (by simp)
  · rename_i hv
    split
    · rename_i ha
      have := hany.mp ha
      exact ⟨fun h => absurd h (by simp), fun h => by omega⟩
    · rename_i ha
      refine ⟨fun _ => ?_, fun _ => rfl⟩
      by_contra hne
      exact ha (hany.mpr (by omega))

theorem mapAnswer_boxes (hs : expectedShape task = .box) {bs : List Detection}
    (h : parseAnswer answer f.width f.height pl = ⟨bs, 0, [], 0, 0⟩) :
    (mapAnswer f task pl answer).kind = (if bs = [] then .abstained else .boxes) ∧
    (mapAnswer f task pl answer).boxes = bs ∧ (mapAnswer f task pl answer).points = [] ∧
    (mapAnswer f task pl answer).deviations_dropped = 0 := by
  cases bs <;>
    simp [mapAnswer, h, hs, Tally.validCount, Tally.dropped, Tally.anyGeometryBlock]

theorem mapAnswer_points (hs : expectedShape task = .point) {ps : List Point}
    (h : parseAnswer answer f.width f.height pl = ⟨[], 0, ps, 0, 0⟩) :
    (mapAnswer f task pl answer).kind = (if ps = [] then .abstained else .points) ∧
    (mapAnswer f task pl answer).boxes = [] ∧ (mapAnswer f task pl answer).points = ps ∧
    (mapAnswer f task pl answer).deviations_dropped = 0 := by
  cases ps <;>
    simp [mapAnswer, h, hs, Tally.validCount, Tally.dropped, Tally.anyGeometryBlock]

theorem mapAnswer_truncated :
    (mapAnswer f task pl answer).model_output_truncated = modelOutputTruncated answer := by
  simp only [mapAnswer]
  split
  · rfl
  · split <;> rfl

end Mapping

end LocateAnything.Worker
