import LocateAnything.Edge.Ipc
import LocateAnything.Worker.Conservation
import LocateAnything.Worker.Run

/-!
# Every reply of the worker is a `Response`

The worker builds a dictionary; the edge parses what it gets strictly, field by field, and
turns anything else into an `IpcError`, which the client sees as a failure of the server. So
nothing the model answers may lead the worker to a dictionary that the edge rejects. The two
programs share no type that would see to it: one side is Python dictionaries, the other a
serde enum. This file is that missing type, proved of the code.

The argument follows the data. The parsers build geometry that is labelled and inside the grid
(`BoxOk`, `PointOk`), because every coordinate goes through `clampCoord` and the corners are
sorted afterwards; `mapAnswer` puts geometry of the task's shape, and of that only, into a
result (`ResultOk`); `successBody` writes a result as the members of one variant and no
others, each of the kind the edge's field reads (`spells_…`), none twice (`noRepeat_…`). The
last is an argument of its own: the edge reads through an untyped map, in which a repeated
member silently survives as its last copy, so a parse that succeeds says nothing about what
the bytes repeat. That the worker repeats nothing has to come from the worker's side, and
carries the shape of the map back to the document (`Envelope.of_value`).

One number is not bounded by anything the worker checks: `deviations_dropped` is a `u32` at
the edge and a count of blocks in the worker, so the theorem assumes that the answer holds
fewer than 2^32 of them. All other numbers are bounded by the image, whose sides `run` has
checked.
-/

set_option autoImplicit false

namespace LocateAnything.Bridge

open Edge (Envelope ResponseType)
open Worker

/-! ## Geometry -/

/-- A detection as the contract promises it: labelled, the corners in order, the normalized
    coordinates within the 0..1000 grid, and four pixel coordinates. Of the pixel coordinates
    only the number is promised here, since the edge reads them as floats of any size; their
    range is `Bounded`, which matters only where they are written again. -/
structure BoxOk (d : Detection) : Prop where
  label : d.label ≠ []
  norm : ∃ x1 y1 x2 y2 : Int, d.bbox_norm = [x1, y1, x2, y2] ∧
    0 ≤ x1 ∧ x1 ≤ x2 ∧ x2 ≤ 1000 ∧ 0 ≤ y1 ∧ y1 ≤ y2 ∧ y2 ≤ 1000
  px : d.bbox_px.length = 4

/-- A point as the contract promises it: `BoxOk` with one corner. -/
structure PointOk (p : Point) : Prop where
  label : p.label ≠ []
  norm : ∃ x y : Int, p.point_norm = [x, y] ∧ 0 ≤ x ∧ x ≤ 1000 ∧ 0 ≤ y ∧ y ≤ 1000
  px : p.point_px.length = 2

/-- The parsers take what the model writes between `<` and `>` as a number of any size; this
    is the only place where it is brought into the grid. -/
theorem clampCoord_bounds (c : Int) : 0 ≤ clampCoord c ∧ clampCoord c ≤ 1000 := by
  unfold clampCoord
  split
  · omega
  · split <;> omega

/-- The label is the caller's, everything else is `makeBox`'s own doing: it clamps and sorts,
    so the answer's coordinates are not constrained at all. -/
theorem boxOk_makeBox {label : Str} (h : label ≠ []) (x1 y1 x2 y2 : Int) (w h' : Nat) :
    BoxOk (makeBox label x1 y1 x2 y2 w h') := by
  have h1 := clampCoord_bounds x1
  have h2 := clampCoord_bounds x2
  have h3 := clampCoord_bounds y1
  have h4 := clampCoord_bounds y2
  refine ⟨h, ⟨_, _, _, _, rfl, ?_, ?_, ?_, ?_, ?_, ?_⟩, rfl⟩ <;> omega

theorem pointOk_makePoint {label : Str} (h : label ≠ []) (x y : Int) (w h' : Nat) :
    PointOk (makePoint label x y w h') := by
  obtain ⟨hx, hx'⟩ := clampCoord_bounds x
  obtain ⟨hy, hy'⟩ := clampCoord_bounds y
  exact ⟨h, ⟨_, _, rfl, hx, hx', hy, hy'⟩, rfl⟩

/-- The parser never leaves a label empty: a box run whose label is blank gives no detections
    at all, its boxes are counted as off contract. -/
theorem boxOk_of_parseBoxes {answer : Str} {w h : Nat} {d : Detection}
    (hd : d ∈ (parseBoxes answer w h).1) : BoxOk d := by
  obtain ⟨m, -, hd⟩ := List.mem_flatMap.mp hd
  unfold boxesOfRun at hd
  dsimp only at hd
  by_cases hl : runLabel m = []
  · rw [if_pos hl] at hd
    exact absurd hd (by simp)
  · rw [if_neg hl] at hd
    obtain ⟨bm, -, rfl⟩ := List.mem_map.mp hd
    exact boxOk_makeBox hl _ _ _ _ w h

theorem pointOk_of_run {boxSpans : List (Regex.Match Char)} {w h : Nat} {m : Regex.Match Char}
    {p : Point} (hp : p ∈ (pointsOfRun boxSpans w h m).1) : PointOk p := by
  unfold pointsOfRun at hp
  by_cases hl : runLabel m = []
  · rw [if_pos hl] at hp
    exact absurd hp (by simp)
  · rw [if_neg hl] at hp
    obtain ⟨pm, -, rfl⟩ := List.mem_map.mp hp
    exact pointOk_makePoint hl _ _ w h

/-- The request's `point_label` is used where it is truthy in Python's sense, which an empty
    string is not: this is why a point has a label even if the request names an empty one. -/
theorem ne_nil_of_truthy {pl : Option Str} {l : Str} (h : truthy pl = some l) : l ≠ [] := by
  rintro rfl
  unfold truthy at h
  split at h
  · exact absurd h (by simp)
  · rename_i hne
    exact hne h

theorem pointOk_of_parsePoints {answer : Str} {w h : Nat} {pl : Option Str} {p : Point}
    (hp : p ∈ (parsePoints answer w h pl).1) : PointOk p := by
  unfold parsePoints at hp
  dsimp only at hp
  split at hp
  · rename_i l hl
    rcases List.mem_append.mp hp with hp | hp
    · obtain ⟨m, -, hp⟩ := List.mem_flatMap.mp hp
      exact pointOk_of_run hp
    · obtain ⟨pm, -, rfl⟩ := List.mem_map.mp hp
      exact pointOk_makePoint (ne_nil_of_truthy hl) _ _ w h
  · obtain ⟨m, -, hp⟩ := List.mem_flatMap.mp hp
    exact pointOk_of_run hp

/-! ## The result -/

/-- What a result is, by its kind. Boxes and points are of the task's shape and never empty:
    an answer without usable geometry is an abstention or a deviation, not an empty list. An
    abstention has dropped nothing, and a deviation has a message, which becomes the reply's.
    -/
inductive ResultOk (task : TemplateKind) (r : InferenceResult) : Prop where
  | boxes : r.kind = .boxes → expectedShape task = .box → r.boxes ≠ [] →
      (∀ d ∈ r.boxes, BoxOk d) → ResultOk task r
  | points : r.kind = .points → expectedShape task = .point → r.points ≠ [] →
      (∀ p ∈ r.points, PointOk p) → ResultOk task r
  | abstained : r.kind = .abstained → r.deviations_dropped = 0 → ResultOk task r
  | deviation (m : Str) : r.kind = .deviation → r.deviation_message = some m → ResultOk task r

/-- The kinds exclude each other, so of a deviation only the last case is left. -/
theorem ResultOk.message {task : TemplateKind} {r : InferenceResult} (h : ResultOk task r)
    (hk : r.kind = .deviation) : ∃ m, r.deviation_message = some m := by
  cases h with
  | deviation m _ hm => exact ⟨m, hm⟩
  | boxes hk' | points hk' | abstained hk' => rw [hk'] at hk; exact absurd hk (by decide)

/-- **The mapping, for every answer.** The geometry of the other shape is parsed as well, and
    counted as deviations, but it does not get into the result; that is what `expectedShape`
    decides here. -/
theorem resultOk_mapAnswer (f : Frame) (task : TemplateKind) (pl : Option Str) (answer : Str) :
    ResultOk task (mapAnswer f task pl answer) := by
  unfold mapAnswer
  dsimp only
  split
  · rename_i hv
    cases hs : expectedShape task with
    | box =>
      rw [hs] at hv
      apply ResultOk.boxes rfl hs
      · exact List.length_pos_iff.mp hv
      · exact fun d hd => boxOk_of_parseBoxes hd
    | point =>
      rw [hs] at hv
      apply ResultOk.points rfl hs
      · exact List.length_pos_iff.mp hv
      · exact fun p hp => pointOk_of_parsePoints hp
  · split
    · exact .deviation _ rfl rfl
    · exact .abstained rfl rfl

theorem mapAnswer_raw_answer (f : Frame) (task : TemplateKind) (pl : Option Str) (answer : Str) :
    (mapAnswer f task pl answer).raw_answer = answer := by
  unfold mapAnswer
  dsimp only
  split
  · rfl
  · split <;> rfl

/-- The sizes in a result are those of the decoded frame and of its resize plan, with the
    scale rounded for the reader; the answer has no part in them. -/
theorem mapAnswer_image_size (f : Frame) (task : TemplateKind) (pl : Option Str) (answer : Str) :
    (mapAnswer f task pl answer).image_size = (f.width, f.height) ∧
    (mapAnswer f task pl answer).resize_plan =
      { f.plan with scale := Binary64.pyRound f.plan.scale 4 } := by
  unfold mapAnswer
  dsimp only
  split
  · exact ⟨rfl, rfl⟩
  · split <;> exact ⟨rfl, rfl⟩

/-- The blocks the parsers count in an answer: boxes, points and malformed ones. It bounds
    what can be dropped, and it is a function of the answer alone, so that the bound is an
    assumption about the model's text and not about what the worker makes of it. -/
def blockCount (answer : Str) : Nat :=
  (boxRe.finditer answer).length + (pointRe.finditer answer).length + countMalformedGeometry answer

/-- By conservation: what is dropped is part of the total, and the total is the number of
    blocks. -/
theorem mapAnswer_dropped_le (f : Frame) (task : TemplateKind) (pl : Option Str) (answer : Str) :
    (mapAnswer f task pl answer).deviations_dropped ≤ blockCount answer := by
  have htotal := total_eq answer f.width f.height pl (expectedShape task)
  unfold blockCount
  unfold mapAnswer
  dsimp only
  split
  · dsimp only
    omega
  · split
    · dsimp only
      omega
    · exact Nat.zero_le _

/-! ## The dictionary -/

section Spells
open Json (Reader)

theorem spells_string (s : Str) : (Reader.string (κ := Str)).Spells (Json.str s).value := ⟨s, rfl⟩

theorem spells_uint {bound n : Nat} (h : n < bound) :
    (Reader.uint (κ := Str) bound).Spells (intJson n).value := ⟨n, h, rfl⟩

theorem spells_float (x : ℚ) : (Reader.float (κ := Str)).Spells (floatJson x).value := ⟨_, rfl⟩

/-- The grid's coordinates fit the edge's `u16`; with `BoxOk` in hand nothing else is asked of
    them. -/
theorem spells_u16 {x : Int} (h0 : 0 ≤ x) (h1 : x ≤ 1000) : Edge.u16.Spells (intJson x).value := by
  obtain ⟨n, rfl⟩ := Int.eq_ofNat_of_zero_le h0
  exact spells_uint (by omega)

/-- The edge's fixed-size arrays read exactly as many elements as the worker writes. -/
theorem spells_tuple {α : Type} {r : Reader Str α} {elems : List (Json Str)}
    (h : ∀ d ∈ elems, r.Spells d.value) :
    (Reader.tuple elems.length r).Spells (Json.arr elems).value := by
  refine ⟨elems.map Json.value, by rw [Json.value, Json.values_eq], by simp, fun d hd => ?_⟩
  obtain ⟨d', hd', rfl⟩ := List.mem_map.mp hd
  exact h d' hd'

theorem spells_floats {n : Nat} {xs : List ℚ} (h : xs.length = n) :
    (Reader.tuple n (Reader.float (κ := Str))).Spells (Json.arr (xs.map floatJson)).value := by
  subst h
  rw [← List.length_map (f := floatJson)]
  apply spells_tuple
  intro e he
  obtain ⟨x, -, rfl⟩ := List.mem_map.mp he
  exact spells_float x

theorem spells_labeledBox {d : Detection} (h : BoxOk d) :
    Edge.labeledBox.Spells d.toJson.value := by
  obtain ⟨x1, y1, x2, y2, hnorm, hx1, hx, hx2, hy1, hy, hy2⟩ := h.norm
  have hnorm_ok : (Reader.tuple 4 Edge.u16).Spells (Json.arr (d.bbox_norm.map intJson)).value := by
    rw [hnorm]
    refine @spells_tuple _ _ ([x1, y1, x2, y2].map intJson) ?_
    intro e he
    obtain ⟨x, hx', rfl⟩ := List.mem_map.mp he
    simp only [List.mem_cons, List.not_mem_nil, or_false] at hx'
    rcases hx' with rfl | rfl | rfl | rfl <;> exact spells_u16 (by omega) (by omega)
  refine .inl ⟨_, rfl, Json.Members.of_values (of_decide_eq_true rfl) (List.Perm.refl _) rfl ?_⟩
  exact .cons (spells_string _) (.cons hnorm_ok (.cons (spells_floats h.px) .nil))

theorem spells_labeledPoint {p : Point} (h : PointOk p) :
    Edge.labeledPoint.Spells p.toJson.value := by
  obtain ⟨x, y, hnorm, hx, hx', hy, hy'⟩ := h.norm
  have hnorm_ok : (Reader.tuple 2 Edge.u16).Spells (Json.arr (p.point_norm.map intJson)).value := by
    rw [hnorm]
    refine @spells_tuple _ _ ([x, y].map intJson) ?_
    intro e he
    obtain ⟨z, hz, rfl⟩ := List.mem_map.mp he
    simp only [List.mem_cons, List.not_mem_nil, or_false] at hz
    rcases hz with rfl | rfl <;> exact spells_u16 (by omega) (by omega)
  refine .inl ⟨_, rfl, Json.Members.of_values (of_decide_eq_true rfl) (List.Perm.refl _) rfl ?_⟩
  exact .cons (spells_string _) (.cons hnorm_ok (.cons (spells_floats h.px) .nil))

theorem spells_vec {α β : Type} {r : Reader Str α} {toJson : β → Json Str} {xs : List β}
    (h : ∀ x ∈ xs, r.Spells (toJson x).value) :
    (Reader.vec r).Spells (Json.arr (xs.map toJson)).value := by
  refine ⟨(xs.map toJson).map Json.value, by rw [Json.value, Json.values_eq], fun d hd => ?_⟩
  rw [List.map_map] at hd
  obtain ⟨x, hx, rfl⟩ := List.mem_map.mp hd
  exact h x hx

theorem spells_resizePlan {plan : ResizePlan} (hw : plan.dst_w < 2 ^ 32) (hh : plan.dst_h < 2 ^ 32)
    (hn : plan.n_llm_tokens < 2 ^ 32) : Edge.resizePlan.Spells plan.toJson.value := by
  refine .inl ⟨_, rfl, Json.Members.of_values (of_decide_eq_true rfl) (List.Perm.refl _) rfl ?_⟩
  exact .cons (spells_uint hw) (.cons (spells_uint hh) (.cons (spells_uint hn)
    (.cons (spells_float _) .nil)))

theorem spells_mode {mode : Str} (h : mode ∈ modes) :
    Edge.generationMode.Spells (Json.str mode).value := by
  simp only [modes, List.mem_cons, List.not_mem_nil, or_false] at h
  rcases h with rfl | rfl | rfl
  · exact ⟨.fast, by simp, .inl rfl⟩
  · exact ⟨.hybrid, by simp, .inl rfl⟩
  · exact ⟨.slow, by simp, .inl rfl⟩

end Spells

/-- The numbers of a result fit the fields of `Meta`, which the edge declares as `u32`.
    Python's own numbers have no bound, so this is where a reply could leave the edge's range.
    -/
structure MetaOk (r : InferenceResult) : Prop where
  dropped : r.deviations_dropped < 2 ^ 32
  width : r.image_size.1 < 2 ^ 32
  height : r.image_size.2 < 2 ^ 32
  dst_w : r.resize_plan.dst_w < 2 ^ 32
  dst_h : r.resize_plan.dst_h < 2 ^ 32
  tokens : r.resize_plan.n_llm_tokens < 2 ^ 32

/-- The members of `Meta` in a body, in the order in which the struct declares them. The
    worker spells them out in `successBody`; having them as one list is what lets the parse be
    proved once for both kinds of geometry and for none. -/
def metaMembers (job : Job) (r : InferenceResult) (total_ms : ℚ) : List (Str × Json Str) :=
  [("raw_text".toList, .str r.raw_answer),
   ("model_output_truncated".toList, .bool r.model_output_truncated),
   ("deviations_dropped".toList, intJson r.deviations_dropped),
   ("image_size".toList, .arr [intJson r.image_size.1, intJson r.image_size.2]),
   ("resize_plan".toList, r.resize_plan.toJson), ("generation_mode_used".toList, .str job.mode),
   ("latency_ms".toList, floatJson (Binary64.pyRound r.latency_ms 1)),
   ("total_ms".toList, floatJson (Binary64.pyRound total_ms 1))]

/-- A body is `ok`, `type`, `frame_id`, then `Meta`, then the geometry; by computation, so
    that a change of the worker's dictionary is seen here first. -/
theorem successBody_eq (job : Job) (r : InferenceResult) (total_ms : ℚ) :
    successBody job r total_ms = .obj
      (("ok".toList, .bool true) :: ("type".toList, .str r.kind.word) ::
        ("frame_id".toList, .str job.frame_id) :: (metaMembers job r total_ms ++ geometry r)) := rfl

/-- Member by member, in the struct's order: the worker's value is one the edge's field reads.
    The mode is the only string among them that the edge does not take as it comes. -/
theorem spells_meta {job : Job} {r : InferenceResult} (total_ms : ℚ) (hmode : job.mode ∈ modes)
    (hr : MetaOk r) : List.Forall₂ (fun f m => f.2 m.2.value) Edge.metaFields.types
      (metaMembers job r total_ms) := by
  have hsize : (Json.Reader.tuple 2 Edge.u32).Spells
      (Json.arr [intJson r.image_size.1, intJson r.image_size.2]).value := by
    refine @spells_tuple _ _ ([intJson r.image_size.1, intJson r.image_size.2]) ?_
    intro e he
    simp only [List.mem_cons, List.not_mem_nil, or_false] at he
    rcases he with rfl | rfl
    · exact spells_uint hr.width
    · exact spells_uint hr.height
  exact .cons (spells_string _) (.cons ⟨_, rfl⟩ (.cons (spells_uint hr.dropped) (.cons hsize
    (.cons (spells_resizePlan hr.dst_w hr.dst_h hr.tokens) (.cons (spells_mode hmode)
    (.cons (spells_float _) (.cons (spells_float _) .nil)))))))

/-- The members a document has, with their values. As a relation, because a document may have
    a member twice; `get_of_hasMember` is the function it becomes where none is repeated. -/
def HasMember (doc : Json Str) (key : Str) (v : Json Str) : Prop :=
  ∃ members, doc = .obj members ∧ (key, v) ∈ members

/-- A document whose members are, in any order, `ok`, `type` and the fields of that type's
    variant, is an `Envelope`. The geometry stands last in the worker's body and first in the
    edge's struct, which is why the order is left open. -/
theorem envelope_of_inOrder {members inOrder : List (Str × Json Str)} {ok : Bool} {t : ResponseType}
    (hn : (members.map Prod.fst).Nodup)
    (hp : members.Perm (("ok".toList, .bool ok) :: ("type".toList, .str t.wireName) :: inOrder))
    (hkeys : inOrder.map Prod.fst = t.fields.types.map Prod.fst)
    (h : List.Forall₂ (fun f m => f.2 m.2.value) t.fields.types inOrder)
    (hok : ok = false ↔ t = .error) : Envelope (Json.obj members).value := by
  refine ⟨_, ok, t, rfl, Json.Members.of_values hn hp ?_ (.cons rfl (.cons rfl h)), hok⟩
  simp only [List.map_cons, hkeys]

/-- The codes the worker may send are those the edge's enum has; the message is any string. -/
theorem envelope_frameError (frame_id message : Str) (code : Edge.ErrorCode) :
    Envelope (frameError frame_id code.asWire (.str message)).value := by
  have hcode : Edge.errorCode.Spells (Json.str code.asWire).value :=
    ⟨code, by cases code <;> simp, .inl rfl⟩
  exact envelope_of_inOrder (t := .error) (of_decide_eq_true rfl) (List.Perm.refl _) rfl
    (.cons (spells_string _) (.cons hcode (.cons (spells_string _) .nil))) (by simp)

/-- No member is spelled twice, whichever geometry is appended: `Meta` has none of the names
    the envelope or the geometry use. -/
theorem successBody_nodup (job : Job) (r : InferenceResult) (total_ms : ℚ) :
    ((("ok".toList, Json.bool true) :: ("type".toList, .str r.kind.word) ::
      ("frame_id".toList, .str job.frame_id) ::
        (metaMembers job r total_ms ++ geometry r)).map Prod.fst).Nodup := by
  obtain ⟨members, hmembers, hnodup, -⟩ := namesFrame_successBody job r total_ms
  rw [successBody_eq] at hmembers
  cases hmembers
  exact hnodup

/-- A deviation has no body of its own, it is answered as an error; of the other three kinds
    each is the variant of the same name. -/
theorem envelope_successBody {job : Job} {task : TemplateKind} {r : InferenceResult} (total_ms : ℚ)
    (hmode : job.mode ∈ modes) (hmeta : MetaOk r) (hr : ResultOk task r)
    (hkind : r.kind ≠ .deviation) : Envelope (successBody job r total_ms).value := by
  have hm := spells_meta total_ms hmode hmeta
  have hn := successBody_nodup job r total_ms
  rw [successBody_eq]
  cases hr with
  | boxes hk _ _ hall =>
    rw [geometry, hk] at hn ⊢
    -- the geometry comes last in the dictionary, and before `Meta` in the struct
    refine envelope_of_inOrder (t := .boxes) hn
      (((List.perm_append_singleton _ _).cons _).cons _ |>.cons _) rfl ?_ (by simp)
    exact .cons (spells_string _) (.cons (spells_vec fun d hd => spells_labeledBox (hall d hd)) hm)
  | points hk _ _ hall =>
    rw [geometry, hk] at hn ⊢
    refine envelope_of_inOrder (t := .points) hn
      (((List.perm_append_singleton _ _).cons _).cons _ |>.cons _) rfl ?_ (by simp)
    have hpoints := spells_vec fun p hp => spells_labeledPoint (hall p hp)
    exact .cons (spells_string _) (.cons hpoints hm)
  | abstained hk _ =>
    rw [geometry, hk] at hn ⊢
    refine envelope_of_inOrder (t := .abstained) hn (List.Perm.of_eq (by rw [List.append_nil]; rfl))
      rfl ?_ (by simp)
    exact .cons (spells_string _) hm
  | deviation m hk => exact absurd hk hkind

/-! ## No key twice -/

section NoRepeat
open Json (NoRepeat)

theorem noRepeat_floats (xs : List ℚ) : NoRepeat (Json.arr (xs.map floatJson)) := by
  refine .arr fun d hd => ?_
  obtain ⟨x, -, rfl⟩ := List.mem_map.mp hd
  exact .num

theorem noRepeat_ints (xs : List Int) : NoRepeat (Json.arr (xs.map intJson)) := by
  refine .arr fun d hd => ?_
  obtain ⟨x, -, rfl⟩ := List.mem_map.mp hd
  exact .num

theorem noRepeat_detection (d : Detection) : NoRepeat d.toJson := by
  refine .obj (of_decide_eq_true rfl) ?_
  simp only [List.forall_mem_cons]
  exact ⟨.str, noRepeat_ints _, noRepeat_floats _, by simp⟩

theorem noRepeat_point (p : Point) : NoRepeat p.toJson := by
  refine .obj (of_decide_eq_true rfl) ?_
  simp only [List.forall_mem_cons]
  exact ⟨.str, noRepeat_ints _, noRepeat_floats _, by simp⟩

theorem noRepeat_resizePlan (plan : ResizePlan) : NoRepeat plan.toJson := by
  refine .obj (of_decide_eq_true rfl) ?_
  simp only [List.forall_mem_cons]
  exact ⟨.num, .num, .num, .num, by simp⟩

theorem noRepeat_frameError (frame_id code message : Str) :
    NoRepeat (frameError frame_id code (.str message)) := by
  refine .obj (of_decide_eq_true rfl) ?_
  simp only [List.forall_mem_cons]
  exact ⟨.bool, .str, .str, .str, .str, by simp⟩

/-- What the geometry adds is arrays of dictionaries with fixed members, so a repeated one
    cannot come from the answer. -/
theorem noRepeat_geometry (r : InferenceResult) : ∀ m ∈ geometry r, NoRepeat m.2 := by
  unfold geometry
  intro m hm
  split at hm
  · rw [List.mem_singleton.mp hm]
    refine .arr fun d hd => ?_
    obtain ⟨x, -, rfl⟩ := List.mem_map.mp hd
    exact noRepeat_detection x
  · rw [List.mem_singleton.mp hm]
    refine .arr fun d hd => ?_
    obtain ⟨x, -, rfl⟩ := List.mem_map.mp hd
    exact noRepeat_point x
  · exact absurd hm (by simp)

theorem noRepeat_successBody (job : Job) (r : InferenceResult) (total_ms : ℚ) :
    NoRepeat (successBody job r total_ms) := by
  have hsize : NoRepeat (.arr [intJson r.image_size.1, intJson r.image_size.2]) := by
    refine .arr ?_
    simp only [List.forall_mem_cons]
    exact ⟨.num, .num, by simp⟩
  rw [successBody_eq]
  refine .obj (successBody_nodup job r total_ms) ?_
  simp only [metaMembers, List.cons_append, List.nil_append, List.forall_mem_cons]
  exact ⟨.bool, .str, .str, .str, .bool, .num, hsize, noRepeat_resizePlan _, .str, .num, .num,
    noRepeat_geometry r⟩

end NoRepeat

/-! ## The contract -/

/-- **What the wire promises of a reply** to a request of this task. `envelope` is the shape;
    `forwarded` is what the shape is for, that the edge passes the reply on, whatever function
    reads the bytes; the other fields are what a client may rely on once it has read the type:
    geometry of the task's shape only, never empty, and an abstention that has dropped
    nothing. The task is an option because a request may name none that exists, and is then
    owed an error but no geometry. -/
structure Contract (task : Option TemplateKind) (doc : Json Str) : Prop where
  envelope : Envelope doc
  /-- The edge does not reject it. -/
  forwarded : ∀ (fromSlice : List UInt8 → Option (Json Str)) (bytes : List UInt8),
    fromSlice bytes = some doc → ∃ response, Edge.infer fromSlice (.reply bytes) = .ok response
  boxes : ∀ v, HasMember doc "boxes".toList v → task.map expectedShape = some .box ∧
    ∃ ds : List Detection, ds ≠ [] ∧ v = .arr (ds.map Detection.toJson) ∧ ∀ d ∈ ds, BoxOk d
  points : ∀ v, HasMember doc "points".toList v → task.map expectedShape = some .point ∧
    ∃ ps : List Point, ps ≠ [] ∧ v = .arr (ps.map Point.toJson) ∧ ∀ p ∈ ps, PointOk p
  abstained : HasMember doc "type".toList (.str "abstained".toList) →
    HasMember doc "deviations_dropped".toList (intJson 0)

/-- The edge's strict parse accepts every envelope: the two notions were stated apart, one by
    the declared types and one by the code of `ipc.rs`. -/
theorem infer_of_envelope {doc : Json Str} (he : Envelope doc.value)
    (fromSlice : List UInt8 → Option (Json Str)) (bytes : List UInt8)
    (hread : fromSlice bytes = some doc) :
    ∃ response, Edge.infer fromSlice (.reply bytes) = .ok response :=
  (Edge.infer_ok_iff fromSlice).mpr ⟨doc, hread, he⟩

theorem get_of_hasMember {members : List (Str × Json Str)} {key : Str} {v : Json Str}
    (hn : (members.map Prod.fst).Nodup) (h : HasMember (.obj members) key v) :
    Json.get key members = some v := by
  obtain ⟨_, hm, hv⟩ := h
  cases hm
  exact (Json.get_eq_some_iff hn).mpr hv

/-- An error has no geometry, whatever its text. -/
theorem contract_frameError (task : Option TemplateKind) (frame_id message : Str)
    (code : Edge.ErrorCode) : Contract task (frameError frame_id code.asWire (.str message)) := by
  have hnr := noRepeat_frameError frame_id code.asWire message
  have he := envelope_frameError frame_id message code
  have hno : ∀ key v, HasMember (frameError frame_id code.asWire (.str message)) key v →
      Json.get key [("ok".toList, Json.bool false), ("type".toList, .str "error".toList),
        ("frame_id".toList, .str frame_id), ("code".toList, .str code.asWire),
        ("message".toList, .str message)] = some v :=
    fun key v h => get_of_hasMember hnr.keys h
  refine ⟨he.of_value hnr, infer_of_envelope he, fun v h => ?_, fun v h => ?_, fun h => ?_⟩
  · exact absurd (hno _ _ h) (by rintro ⟨⟩)
  · exact absurd (hno _ _ h) (by rintro ⟨⟩)
  · have htype := hno _ _ h
    rw [show Json.get "type".toList _ = some (Json.str "error".toList) from rfl] at htype
    exact absurd (Json.str.inj (Option.some.inj htype)) (by decide)

/-- The fields of `Contract` are read off `ResultOk`, and the absence of the other geometry
    off the member names. -/
theorem contract_successBody {job : Job} {task : TemplateKind} {r : InferenceResult} (total_ms : ℚ)
    (hmode : job.mode ∈ modes) (hmeta : MetaOk r) (hr : ResultOk task r)
    (hkind : r.kind ≠ .deviation) : Contract (some task) (successBody job r total_ms) := by
  have hnr := noRepeat_successBody job r total_ms
  have he := envelope_successBody total_ms hmode hmeta hr hkind
  have hfind := fun key v => @get_of_hasMember _ key v (successBody_nodup job r total_ms)
  refine ⟨he.of_value hnr, infer_of_envelope he, fun v h => ?_, fun v h => ?_, fun h => ?_⟩
  -- the variants have each their own field, so a field tells the variant
  · have hget : Json.get "boxes".toList (geometry r) = some v := hfind _ _ h
    cases hr with
    | boxes hk hs hne hall =>
      rw [geometry, hk] at hget
      exact ⟨congrArg some hs, r.boxes, hne, (Option.some.inj hget).symm, hall⟩
    | points hk => rw [geometry, hk] at hget; exact absurd hget (by rintro ⟨⟩)
    | abstained hk => rw [geometry, hk] at hget; exact absurd hget (by rintro ⟨⟩)
    | deviation m hk => exact absurd hk hkind
  · have hget : Json.get "points".toList (geometry r) = some v := hfind _ _ h
    cases hr with
    | boxes hk => rw [geometry, hk] at hget; exact absurd hget (by rintro ⟨⟩)
    | points hk hs hne hall =>
      rw [geometry, hk] at hget
      exact ⟨congrArg some hs, r.points, hne, (Option.some.inj hget).symm, hall⟩
    | abstained hk => rw [geometry, hk] at hget; exact absurd hget (by rintro ⟨⟩)
    | deviation m hk => exact absurd hk hkind
  · have hget : some (Json.str r.kind.word) = some (.str "abstained".toList) := hfind _ _ h
    have hword := Json.str.inj (Option.some.inj hget)
    cases hr with
    | boxes hk => rw [hk] at hword; exact absurd hword (by decide)
    | points hk => rw [hk] at hword; exact absurd hword (by decide)
    | abstained hk hdropped =>
      refine ⟨_, successBody_eq job r total_ms, ?_⟩
      rw [metaMembers, hdropped]
      simp
    | deviation m hk => exact absurd hk hkind

/-! ## Every reply -/

section Replies
variable {Image Inputs : Type}

/-- The numbers of a result are small enough. The sizes are so because `run` has checked the
    image before it asks the model anything; the dropped blocks are by assumption. -/
theorem metaOk_of_run {eng : Engine Image Inputs} {call : EngineCall} {r : InferenceResult}
    (hrun : eng.run call = .ok r) (hblocks : blockCount r.raw_answer < 2 ^ 32) :
    call.mode ∈ modes ∧ MetaOk r ∧
      ∃ task, canonicalTask call.prompt_task = some task ∧ ResultOk task r := by
  obtain ⟨image, task, plan, -, answer, latency_ms, label, haccept, hmode, -, rfl⟩ :=
    Engine.run_eq_ok hrun
  obtain ⟨-, htask, -, -, hgates, hplan⟩ := accept_eq_ok_iff.mp haccept
  obtain ⟨-, hw, hh⟩ := dimensionGates_eq_ok_iff.mp hgates
  obtain ⟨-, -, hdw, hdh, htokens⟩ := planResize_bounds hplan
  have hlew := (gridCeil_least (eng.size image).1).2.1
  have hleh := (gridCeil_least (eng.size image).2).2.1
  obtain ⟨hsize, hresize⟩ :=
    mapAnswer_image_size (frameOf eng.toPil image plan latency_ms) task label answer
  have hdropped :=
    mapAnswer_dropped_le (frameOf eng.toPil image plan latency_ms) task label answer
  rw [mapAnswer_raw_answer] at hblocks
  -- every count of `Meta` is a `u32`: the gates bound the sides, and the sides the tokens
  have htokens_le : plan.n_llm_tokens ≤ 512 * 512 := by
    rw [htokens]
    calc plan.dst_w / 14 * (plan.dst_h / 14) / 4 ≤ plan.dst_w / 14 * (plan.dst_h / 14) :=
          Nat.div_le_self _ _
      _ ≤ 512 * 512 := Nat.mul_le_mul (by omega) (by omega)
  refine ⟨hmode, ⟨by omega, ?_, ?_, ?_, ?_, ?_⟩, task, htask, resultOk_mapAnswer _ _ _ _⟩
  · rw [hsize]; simp only [frameOf]; omega
  · rw [hsize]; simp only [frameOf]; omega
  · rw [hresize]; simp only [frameOf]; omega
  · rw [hresize]; simp only [frameOf]; omega
  · rw [hresize]; simp only [frameOf]; omega

/-- Every code with which the worker refuses a request is one of the edge's. -/
theorem code_of_refusal (r : Refusal) : ∃ code : Edge.ErrorCode, r.code = code.asWire := by
  cases r with
  | emptyPayload | notJpeg => exact ⟨.invalidImage, rfl⟩
  | _ => exact ⟨.internal, rfl⟩

/-- **Every reply to a Frame keeps the contract**, whatever the header, the payload and the engine,
    as long as the answer holds fewer than 2^32 blocks. -/
theorem every_reply_contract (py : Python) (eng : Engine Image Inputs) (header : Dict)
    (jpeg : Framing.Bytes) (total_ms : Option ℚ)
    (hblocks : ∀ job r, admission header jpeg = .ok job → eng.run job.call = .ok r →
      blockCount r.raw_answer < 2 ^ 32) :
    Contract (canonicalTask (header.get "prompt_task".toList))
      (frameReply py eng header jpeg total_ms) := by
  unfold frameReply infer
  cases hadm : admission header jpeg with
  | error p =>
    obtain ⟨frame_id, refusal⟩ := p
    obtain ⟨code, hcode⟩ := code_of_refusal refusal
    dsimp only
    rw [hcode]
    exact contract_frameError _ _ _ code
  | ok job =>
    have htask : job.prompt_task = header.get "prompt_task".toList :=
      (admission_eq_ok hadm).2.2.2.2.2.2.2
    dsimp only
    cases total_ms with
    | none => exact contract_frameError _ _ _ .internal
    | some total_ms =>
      cases hrun : eng.run job.call with
      | error e =>
        simp only [outcomeOf]
        cases e.toFault py with
        | valueError text => exact contract_frameError _ _ _ .invalidImage
        | _ => exact contract_frameError _ _ _ .internal
      | ok r =>
        obtain ⟨hmode, hmeta, task, hcanonical, hr⟩ := metaOk_of_run hrun (hblocks job r hadm hrun)
        simp only [outcomeOf, inferReply]
        by_cases hkind : r.kind = .deviation
        · rw [if_pos hkind]
          obtain ⟨m, hm⟩ := hr.message hkind
          rw [hm]
          exact contract_frameError _ _ _ .modelDeviation
        · rw [if_neg hkind, ← htask]
          dsimp only
          rw [show canonicalTask job.prompt_task = some task from hcanonical]
          exact contract_successBody total_ms hmode hmeta hr hkind

end Replies

def sampleAnswer : Str := "<box><500><250></box><|im_end|>".toList

theorem every_reply_contract_sample :
    Contract (some .point)
      (frameReply plainPython (sampleEngine (640, 480) sampleAnswer) (sampleHeader "point".toList)
        [0xFF, 0xD8, 0xFF, 0xE0] (some 300)) := by
  refine every_reply_contract plainPython (sampleEngine (640, 480) sampleAnswer)
    (sampleHeader "point".toList) [0xFF, 0xD8, 0xFF, 0xE0] (some 300) fun job r _ hrun => ?_
  obtain ⟨_, _, _, _, _, _, _, -, -, hgenerate, rfl⟩ := Engine.run_eq_ok hrun
  obtain ⟨rfl, rfl⟩ := Prod.mk.inj (Except.ok.inj hgenerate)
  rw [mapAnswer_raw_answer]
  decide +kernel

end LocateAnything.Bridge
