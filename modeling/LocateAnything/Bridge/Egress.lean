import LocateAnything.Bridge.Contract
import LocateAnything.Edge.Wire

/-!
# From the worker's reply to the client's

The edge does not forward the worker's bytes. It parses a reply into a `Response`, drops `ok`
on the way, and serializes that `Response` for the client. Two things could go wrong between
the two: a member could be lost or invented, and a number could come out as another one. The
first is excluded here (`egress_transparent`); the second cannot be, since floats are read
into an `f32` or an `f64` and printed again, so it is described: `Floats.printed` is exactly
what happens to a document, namely that every float in it is written again under its own key's
width, and nothing else changes.

## How the two sides are related

`Represents members r` relates the worker's members to the edge's value: written by *any*
float format the value has these members, so printed, in some order. The quantifier over the
formats is what makes the relation about the value and not about one serialization of it, and
it is what the existence lemmas (`exists_labeledBox`, `exists_meta`, …) construct: from
geometry that keeps the contract, a value of the edge's types which is written as that
geometry under every format.

An `f32` has a range, and serde refuses a number beyond it. Hence the bounds: a pixel
coordinate is a grid coordinate, at most 1000, times a side below 2^32 (`abs_px_le`), far
within `Small`. No hypothesis about the answer is needed for that, because the grid
coordinates are clamped.
-/

set_option autoImplicit false

namespace LocateAnything.Bridge

open Edge (Floats Response)
open Json (Number NoRepeat)
open Worker

/-! ## Floats, written again -/

/-- A number under this key: the pixel coordinates are `f32`s at the edge, all other floats
    `f64`s. The key decides because the width is the field's and the worker's document knows
    only names. An integer is written as it was read, whatever its field. -/
def number (fl : Floats) (key : Str) : Number → Json Str
  | .float x =>
    if key = "bbox_px".toList ∨ key = "point_px".toList then
      (fl.f32 (.float x)).elim .null .num
    else .num (fl.f64 (.float x))
  | x => .num x

mutual

/-- A document with its floats written again. The key is that of the member the document
    stands under, handed down through arrays, since the elements of `bbox_px` are of the
    field's width too. -/
def printed (fl : Floats) (key : Str) : Json Str → Json Str
  | .num x => number fl key x
  | .arr elems => .arr (printedElems fl key elems)
  | .obj members => .obj (printedMembers fl members)
  | .null => .null
  | .bool b => .bool b
  | .str s => .str s

def printedElems (fl : Floats) (key : Str) : List (Json Str) → List (Json Str)
  | [] => []
  | d :: elems => printed fl key d :: printedElems fl key elems

def printedMembers (fl : Floats) : List (Str × Json Str) → List (Str × Json Str)
  | [] => []
  | (key, d) :: members => (key, printed fl key d) :: printedMembers fl members

end

/-- The mutual recursion is what the termination checker wants; `map` is what the proofs use.
    -/
theorem printedElems_eq (fl : Floats) (key : Str) (elems : List (Json Str)) :
    printedElems fl key elems = elems.map (printed fl key) := by
  induction elems with
  | nil => rfl
  | cons d elems ih => rw [printedElems, ih, List.map_cons]

theorem printedMembers_eq (fl : Floats) (members : List (Str × Json Str)) :
    printedMembers fl members = members.map fun m => (m.1, printed fl m.1 m.2) := by
  induction members with
  | nil => rfl
  | cons m members ih => rw [printedMembers, ih, List.map_cons]

mutual

/-- With a format that keeps every number the document is unchanged, so `printed` changes
    nothing but numbers. -/
theorem printed_verbatim (key : Str) : ∀ d, printed .verbatim key d = d
  | .num x => by
    rw [printed]
    cases x with
    | float q =>
      rw [number]
      split <;> rfl
    | _ => rfl
  | .arr elems => by rw [printed, printedElems_verbatim]
  | .obj members => by rw [printed, printedMembers_verbatim]
  | .null => rfl
  | .bool _ => rfl
  | .str _ => rfl

theorem printedElems_verbatim (key : Str) : ∀ elems, printedElems .verbatim key elems = elems
  | [] => rfl
  | d :: elems => by rw [printedElems, printed_verbatim, printedElems_verbatim]

theorem printedMembers_verbatim : ∀ members, printedMembers .verbatim members = members
  | [] => rfl
  | (key, d) :: members => by rw [printedMembers, printed_verbatim, printedMembers_verbatim]

end

theorem printed_int (fl : Floats) (key : Str) (n : Int) :
    printed fl key (intJson n) = intJson n := by
  unfold intJson
  split <;> rfl

theorem printed_ints (fl : Floats) (key : Str) (ns : List Int) :
    printed fl key (.arr (ns.map intJson)) = .arr (ns.map intJson) := by
  rw [printed, printedElems_eq, List.map_map]
  exact congrArg Json.arr (List.map_congr_left fun n _ => printed_int fl key n)

/-! ## The values of a reply -/

/-- From the existence of a counterpart for every element, a list of counterparts. The
    function may depend on a further argument (the float format, say) which must not influence
    the choice: that is why the quantifier over it stands inside. -/
theorem exists_list {ι : Type*} {α β γ : Type} {P : β → Prop} {f : ι → β → γ} {g : ι → α → γ}
    {as : List α} (h : ∀ a ∈ as, ∃ b, P b ∧ ∀ i, f i b = g i a) :
    ∃ bs : List β, (∀ b ∈ bs, P b) ∧ ∀ i, bs.map (f i) = as.map (g i) := by
  induction as with
  | nil => exact ⟨[], by simp, fun _ => rfl⟩
  | cons a as ih =>
    rw [List.forall_mem_cons] at h
    obtain ⟨b, hb, hf⟩ := h.1
    obtain ⟨bs, hbs, hfs⟩ := ih h.2
    refine ⟨b :: bs, ?_, fun i => by rw [List.map_cons, List.map_cons, hf, hfs]⟩
    rw [List.forall_mem_cons]
    exact ⟨hb, hbs⟩

/-- The numbers of the range an `f32` has, with room to spare: rounding one of these to an
    `f32` never leads to infinity. -/
def Small (x : Number) : Prop := ∃ q : ℚ, x = .float q ∧ |q| ≤ 2 ^ 127

/-- What `Small` is for: the number is written, under every format. -/
theorem Small.finite {x : Number} (h : Small x) (fl : Floats) : (fl.f32 x).isSome := by
  obtain ⟨q, rfl, hq⟩ := h
  exact fl.f32_finite q hq

theorem exists_u16s {n : Nat} {ns : List Int} (hn : ns.length = n)
    (h : ∀ m ∈ ns, 0 ≤ m ∧ m ≤ 1000) :
    ∃ v : List.Vector Edge.U16 n, v.toList.map Edge.u16Codec.write = ns.map intJson := by
  refine ⟨⟨ns.map fun m => Fin.ofNat (2 ^ 16) m.toNat, by simp [hn]⟩, ?_⟩
  show (ns.map fun m => Fin.ofNat (2 ^ 16) m.toNat).map _ = _
  rw [List.map_map]
  refine List.map_congr_left fun m hm => ?_
  obtain ⟨h0, h1⟩ := h m hm
  have hmod : m.toNat % 2 ^ 16 = m.toNat := Nat.mod_eq_of_lt (by omega)
  simp only [Function.comp, Edge.u16Codec, Json.Codec.uint, intJson, if_pos h0, Fin.ofNat, hmod]

/-- Coordinates of the worker's, as the edge writes them: one value for all formats, and
    within `f32`. -/
theorem exists_px {n : Nat} {xs : List ℚ} (hn : xs.length = n) (h : ∀ x ∈ xs, |x| ≤ 2 ^ 127) :
    ∃ v : List.Vector Number n, (∀ x ∈ v.toList, Small x) ∧
      ∀ fl key, key = "bbox_px".toList ∨ key = "point_px".toList →
        printed fl key (.arr (xs.map floatJson)) =
          .arr (v.toList.map (Edge.f32Codec fl).write) := by
  refine ⟨⟨xs.map .float, by simp [hn]⟩, fun x hx => ?_, fun fl key hkey => ?_⟩
  · obtain ⟨q, hq, rfl⟩ := List.mem_map.mp hx
    exact ⟨q, rfl, h q hq⟩
  · show _ = Json.arr ((xs.map Number.float).map _)
    rw [printed, printedElems_eq, List.map_map, List.map_map]
    refine congrArg Json.arr (List.map_congr_left fun x _ => ?_)
    show number fl key (.float x) = (fl.f32 (.float x)).elim .null .num
    rw [number, if_pos hkey]

/-- A box of the edge's that is written as this document, its floats apart. The members of the
    struct are in the order of the worker's dictionary here, so that the equation is exact. -/
theorem exists_labeledBox {d : Detection} (h : BoxOk d) (hpx : ∀ x ∈ d.bbox_px, |x| ≤ 2 ^ 127) :
    ∃ b : Edge.LabeledBox, (∀ x ∈ b.bbox_px.toList, Small x) ∧
      ∀ fl key, (Edge.labeledBoxCodec fl).write b = printed fl key d.toJson := by
  obtain ⟨x1, y1, x2, y2, hnorm, hx1, hx, hx2, hy1, hy, hy2⟩ := h.norm
  have hnorm_le : ∀ n ∈ d.bbox_norm, 0 ≤ n ∧ n ≤ 1000 := by
    rw [hnorm]
    simp only [List.forall_mem_cons]
    exact ⟨by omega, by omega, by omega, by omega, by simp⟩
  obtain ⟨norm, hwrite⟩ := exists_u16s (n := 4) (by rw [hnorm]; rfl) hnorm_le
  obtain ⟨px, hsmall, hprinted⟩ := exists_px h.px hpx
  refine ⟨⟨d.label, norm, px⟩, hsmall, fun fl key => ?_⟩
  rw [Detection.toJson, printed, printedMembers_eq]
  simp only [List.map_cons, List.map_nil, printed_ints, hprinted fl _ (.inl rfl)]
  rw [← hwrite]
  rfl

theorem exists_labeledPoint {p : Point} (h : PointOk p) (hpx : ∀ x ∈ p.point_px, |x| ≤ 2 ^ 127) :
    ∃ q : Edge.LabeledPoint, (∀ x ∈ q.point_px.toList, Small x) ∧
      ∀ fl key, (Edge.labeledPointCodec fl).write q = printed fl key p.toJson := by
  obtain ⟨x, y, hnorm, hx, hx', hy, hy'⟩ := h.norm
  have hnorm_le : ∀ n ∈ p.point_norm, 0 ≤ n ∧ n ≤ 1000 := by
    rw [hnorm]
    simp only [List.forall_mem_cons]
    exact ⟨by omega, by omega, by simp⟩
  obtain ⟨norm, hwrite⟩ := exists_u16s (n := 2) (by rw [hnorm]; rfl) hnorm_le
  obtain ⟨px, hsmall, hprinted⟩ := exists_px h.px hpx
  refine ⟨⟨p.label, norm, px⟩, hsmall, fun fl key => ?_⟩
  rw [Point.toJson, printed, printedMembers_eq]
  simp only [List.map_cons, List.map_nil, printed_ints, hprinted fl _ (.inr rfl)]
  rw [← hwrite]
  rfl

theorem u32_write {n : Nat} (h : n < 2 ^ 32) :
    Edge.u32Codec.write (Fin.ofNat (2 ^ 32) n) = intJson n := by
  have hmod : n % 2 ^ 32 = n := Nat.mod_eq_of_lt h
  simp only [Edge.u32Codec, Json.Codec.uint, intJson, Fin.ofNat, hmod]
  rfl

/-- The names of the generation modes are the same on both sides. -/
theorem exists_mode {mode : Str} (h : mode ∈ modes) :
    ∃ m : Edge.GenerationMode, Edge.generationModeCodec.write m = .str mode := by
  simp only [modes, List.mem_cons, List.not_mem_nil, or_false] at h
  rcases h with rfl | rfl | rfl
  · exact ⟨.fast, rfl⟩
  · exact ⟨.hybrid, rfl⟩
  · exact ⟨.slow, rfl⟩

/-- A `Meta` of the edge's for the worker's members, under every format. -/
theorem exists_meta {job : Job} {r : InferenceResult} (total_ms : ℚ) (hmode : job.mode ∈ modes)
    (hr : MetaOk r) :
    ∃ m : Edge.Meta, ∀ fl,
      (Edge.metaCodec fl).members m = printedMembers fl (metaMembers job r total_ms) := by
  obtain ⟨mode, hwrite⟩ := exists_mode hmode
  refine ⟨
    { raw_text := r.raw_answer
      model_output_truncated := r.model_output_truncated
      deviations_dropped := Fin.ofNat (2 ^ 32) r.deviations_dropped
      image_size := ⟨[Fin.ofNat (2 ^ 32) r.image_size.1, Fin.ofNat (2 ^ 32) r.image_size.2], rfl⟩
      resize_plan :=
        { dst_w := Fin.ofNat (2 ^ 32) r.resize_plan.dst_w
          dst_h := Fin.ofNat (2 ^ 32) r.resize_plan.dst_h
          n_llm_tokens := Fin.ofNat (2 ^ 32) r.resize_plan.n_llm_tokens
          scale := .float r.resize_plan.scale }
      generation_mode_used := mode
      latency_ms := .float (Binary64.pyRound r.latency_ms 1)
      total_ms := .float (Binary64.pyRound total_ms 1) }, fun fl => ?_⟩
  rw [metaMembers, ResizePlan.toJson]
  simp only [printedMembers, printed, printedElems, ← u32_write hr.dropped,
    ← u32_write hr.width, ← u32_write hr.height, ← u32_write hr.dst_w, ← u32_write hr.dst_h,
    ← u32_write hr.tokens, ← hwrite]
  rfl

/-! ## A reply for every body of the worker -/

/-- A reply that the edge writes as these members, its floats apart. Up to their order,
    because the edge's structs put the geometry before `Meta` and the worker's body after it;
    JSON gives the order no meaning. -/
structure Represents (members : List (Str × Json Str)) (r : Response) : Prop where
  small : ∀ x ∈ r.pixels, Small x
  members : ∀ fl, (r.members fl).Perm (printedMembers fl members)

theorem printed_vec {α : Type} (fl : Floats) (key : Str) (toJson : α → Json Str) (xs : List α) :
    printed fl key (.arr (xs.map toJson)) = .arr (xs.map fun x => printed fl key (toJson x)) := by
  rw [printed, printedElems_eq, List.map_map]
  rfl

/-- The geometry comes first in the struct and last in the worker's body: the one place where
    the order changes, proved once for boxes and points. -/
theorem represents_geometry {word frame_id key : Str} {doc : Json Str}
    {metas : List (Str × Json Str)} {m : Edge.Meta} {r : Response} (hsmall : ∀ x ∈ r.pixels, Small x)
    (hm : ∀ fl, (Edge.metaCodec fl).members m = printedMembers fl metas)
    (hr : ∀ fl, r.members fl = ("type".toList, .str word) :: ("frame_id".toList, .str frame_id) ::
      (key, printed fl key doc) :: (Edge.metaCodec fl).members m) :
    Represents (("type".toList, .str word) :: ("frame_id".toList, .str frame_id) ::
      (metas ++ [(key, doc)])) r := by
  refine ⟨hsmall, fun fl => ?_⟩
  have hprinted : printedMembers fl (("type".toList, .str word) ::
      ("frame_id".toList, .str frame_id) :: (metas ++ [(key, doc)])) =
      ("type".toList, .str word) :: ("frame_id".toList, .str frame_id) ::
        (printedMembers fl metas ++ [(key, printed fl key doc)]) := by
    simp only [printedMembers_eq, List.map_cons, List.map_append, List.map_nil, printed]
  rw [hr, hprinted, hm]
  exact ((List.perm_append_singleton _ _).symm.cons _).cons _

theorem represents_boxes {frame_id : Str} {ds : List Detection} {metas : List (Str × Json Str)}
    (hds : ∀ d ∈ ds, BoxOk d ∧ ∀ x ∈ d.bbox_px, |x| ≤ 2 ^ 127) {m : Edge.Meta}
    (hm : ∀ fl, (Edge.metaCodec fl).members m = printedMembers fl metas) :
    ∃ r, r.isError = false ∧ Represents (("type".toList, .str "boxes".toList) ::
      ("frame_id".toList, .str frame_id) ::
        (metas ++ [("boxes".toList, .arr (ds.map Detection.toJson))])) r := by
  obtain ⟨bs, hsmall, hwrite⟩ := exists_list fun d hd =>
    (exists_labeledBox (hds d hd).1 (hds d hd).2).imp fun b hb =>
      ⟨hb.1, fun fl => hb.2 fl "boxes".toList⟩
  refine ⟨.boxes ⟨frame_id, bs, m⟩, rfl, represents_geometry (fun x hx => ?_) hm fun fl => ?_⟩
  · obtain ⟨b, hb, hx⟩ := List.mem_flatMap.mp hx
    exact hsmall b hb x hx
  · rw [printed_vec, ← hwrite]
    rfl

theorem represents_points {frame_id : Str} {ps : List Point} {metas : List (Str × Json Str)}
    (hps : ∀ p ∈ ps, PointOk p ∧ ∀ x ∈ p.point_px, |x| ≤ 2 ^ 127) {m : Edge.Meta}
    (hm : ∀ fl, (Edge.metaCodec fl).members m = printedMembers fl metas) :
    ∃ r, r.isError = false ∧ Represents (("type".toList, .str "points".toList) ::
      ("frame_id".toList, .str frame_id) ::
        (metas ++ [("points".toList, .arr (ps.map Point.toJson))])) r := by
  obtain ⟨qs, hsmall, hwrite⟩ := exists_list fun p hp =>
    (exists_labeledPoint (hps p hp).1 (hps p hp).2).imp fun q hq =>
      ⟨hq.1, fun fl => hq.2 fl "points".toList⟩
  refine ⟨.points ⟨frame_id, qs, m⟩, rfl, represents_geometry (fun x hx => ?_) hm fun fl => ?_⟩
  · obtain ⟨q, hq, hx⟩ := List.mem_flatMap.mp hx
    exact hsmall q hq x hx
  · rw [printed_vec, ← hwrite]
    rfl

/-- The coordinates of a result are within the range of `f32`. It is apart from `BoxOk`
    because the worker promises it to no one: it holds because images are smaller than 2^32
    pixels a side. -/
structure Bounded (r : InferenceResult) : Prop where
  boxes : ∀ d ∈ r.boxes, ∀ x ∈ d.bbox_px, |x| ≤ 2 ^ 127
  points : ∀ p ∈ r.points, ∀ x ∈ p.point_px, |x| ≤ 2 ^ 127

/-- A body of the worker's and the reply the edge makes of it, without `ok`. The first member
    is stated with its value, `!r.isError`, since a wrong one is what the edge's first check
    refuses. -/
structure Forwarded (doc : Json Str) (r : Response) : Prop where
  noRepeat : NoRepeat doc
  represents : ∃ members, doc = .obj (("ok".toList, .bool !r.isError) :: members) ∧
    Represents members r

theorem forwarded_frameError (frame_id message : Str) (code : Edge.ErrorCode) :
    Forwarded (frameError frame_id code.asWire (.str message))
      (.error ⟨frame_id, code, message⟩) :=
  ⟨noRepeat_frameError _ _ _, _, rfl, fun x hx => absurd hx (by simp [Response.pixels]),
    fun _ => List.Perm.refl _⟩

/-- One case per kind: each success body is that of one variant. -/
theorem forwarded_successBody {job : Job} {task : TemplateKind} {r : InferenceResult} (total_ms : ℚ)
    (hmode : job.mode ∈ modes) (hmeta : MetaOk r) (hr : ResultOk task r)
    (hkind : r.kind ≠ .deviation) (hb : Bounded r) :
    ∃ resp, Forwarded (successBody job r total_ms) resp := by
  obtain ⟨m, hm⟩ := exists_meta total_ms hmode hmeta
  have hnr := noRepeat_successBody job r total_ms
  suffices h : ∃ resp, resp.isError = false ∧ Represents (("type".toList, .str r.kind.word) ::
      ("frame_id".toList, .str job.frame_id) :: (metaMembers job r total_ms ++ geometry r)) resp by
    obtain ⟨resp, herr, hrep⟩ := h
    refine ⟨resp, hnr, _, ?_, hrep⟩
    rw [herr, successBody_eq]
    rfl
  cases hr with
  | boxes hk _ _ hall =>
    rw [geometry, hk]
    exact represents_boxes (fun d hd => ⟨hall d hd, hb.boxes d hd⟩) hm
  | points hk _ _ hall =>
    rw [geometry, hk]
    exact represents_points (fun p hp => ⟨hall p hp, hb.points p hp⟩) hm
  | abstained hk _ =>
    rw [geometry, hk, List.append_nil]
    refine ⟨.abstained ⟨job.frame_id, m⟩, rfl, fun x hx => absurd hx (by simp [Response.pixels]),
      fun fl => List.Perm.of_eq ?_⟩
    rw [printedMembers, printedMembers, ← hm]
    rfl
  | deviation _ hk => exact absurd hk hkind

/-! ## The range of the coordinates -/

/-- A grid coordinate over a thousand of the side: at most the side. -/
theorem abs_px_le {c : Int} (hc : 0 ≤ c ∧ c ≤ 1000) {dim : Nat} (hdim : dim < 2 ^ 32) :
    |px c dim| ≤ 2 ^ 127 := by
  have hquot : |(c : ℚ) / 1000| ≤ 1 := by
    have h0 : (0 : ℚ) ≤ c := by exact_mod_cast hc.1
    have h1 : (c : ℚ) ≤ 1000 := by exact_mod_cast hc.2
    rw [abs_of_nonneg (by positivity), div_le_one (by norm_num)]
    exact h1
  have hdim' : (dim : ℚ) ≤ 2 ^ 32 := by exact_mod_cast hdim.le
  have hprod : |Binary64.double (c / 1000) * dim| ≤ 2 * 2 ^ 32 := by
    rw [abs_mul, abs_of_nonneg (show (0 : ℚ) ≤ dim from Nat.cast_nonneg dim)]
    have := Binary64.abs_double_le ((c : ℚ) / 1000)
    exact mul_le_mul (by linarith) hdim' (Nat.cast_nonneg _) (by norm_num)
  have hdouble := Binary64.abs_double_le (Binary64.double (c / 1000) * dim)
  refine (Binary64.abs_pyRound_le _ 2).trans ?_
  linarith

/-- A box's pixels are those of its clamped corners, so the answer does not enter the bound.
    -/
theorem abs_makeBox_px_le {label : Str} {x1 y1 x2 y2 : Int} {w h : Nat} (hw : w < 2 ^ 32)
    (hh : h < 2 ^ 32) : ∀ x ∈ (makeBox label x1 y1 x2 y2 w h).bbox_px, |x| ≤ 2 ^ 127 := by
  have h1 := clampCoord_bounds x1
  have h2 := clampCoord_bounds x2
  have h3 := clampCoord_bounds y1
  have h4 := clampCoord_bounds y2
  simp only [makeBox, List.forall_mem_cons]
  exact ⟨abs_px_le (by omega) hw, abs_px_le (by omega) hh, abs_px_le (by omega) hw,
    abs_px_le (by omega) hh, by simp⟩

theorem abs_makePoint_px_le {label : Str} {x y : Int} {w h : Nat} (hw : w < 2 ^ 32)
    (hh : h < 2 ^ 32) : ∀ q ∈ (makePoint label x y w h).point_px, |q| ≤ 2 ^ 127 := by
  simp only [makePoint, List.forall_mem_cons]
  exact ⟨abs_px_le (clampCoord_bounds x) hw, abs_px_le (clampCoord_bounds y) hh, by simp⟩

theorem abs_parseBoxes_px_le {answer : Str} {w h : Nat} (hw : w < 2 ^ 32) (hh : h < 2 ^ 32)
    {d : Detection} (hd : d ∈ (parseBoxes answer w h).1) : ∀ x ∈ d.bbox_px, |x| ≤ 2 ^ 127 := by
  obtain ⟨m, -, hd⟩ := List.mem_flatMap.mp hd
  unfold boxesOfRun at hd
  dsimp only at hd
  by_cases hl : runLabel m = []
  · rw [if_pos hl] at hd
    exact absurd hd (by simp)
  · rw [if_neg hl] at hd
    obtain ⟨bm, -, rfl⟩ := List.mem_map.mp hd
    exact abs_makeBox_px_le hw hh

theorem abs_pointsOfRun_px_le {boxSpans : List (Regex.Match Char)} {w h : Nat} (hw : w < 2 ^ 32)
    (hh : h < 2 ^ 32) {m : Regex.Match Char} {p : Point}
    (hp : p ∈ (pointsOfRun boxSpans w h m).1) : ∀ x ∈ p.point_px, |x| ≤ 2 ^ 127 := by
  unfold pointsOfRun at hp
  by_cases hl : runLabel m = []
  · rw [if_pos hl] at hp
    exact absurd hp (by simp)
  · rw [if_neg hl] at hp
    obtain ⟨pm, -, rfl⟩ := List.mem_map.mp hp
    exact abs_makePoint_px_le hw hh

theorem abs_parsePoints_px_le {answer : Str} {w h : Nat} (hw : w < 2 ^ 32) (hh : h < 2 ^ 32)
    {pl : Option Str} {p : Point} (hp : p ∈ (parsePoints answer w h pl).1) :
    ∀ x ∈ p.point_px, |x| ≤ 2 ^ 127 := by
  unfold parsePoints at hp
  dsimp only at hp
  split at hp
  · rcases List.mem_append.mp hp with hp | hp
    · obtain ⟨m, -, hp⟩ := List.mem_flatMap.mp hp
      exact abs_pointsOfRun_px_le hw hh hp
    · obtain ⟨pm, -, rfl⟩ := List.mem_map.mp hp
      exact abs_makePoint_px_le hw hh
  · obtain ⟨m, -, hp⟩ := List.mem_flatMap.mp hp
    exact abs_pointsOfRun_px_le hw hh hp

theorem bounded_mapAnswer {f : Frame} (hw : f.width < 2 ^ 32) (hh : f.height < 2 ^ 32)
    (task : TemplateKind) (pl : Option Str) (answer : Str) :
    Bounded (mapAnswer f task pl answer) := by
  have hempty : ∀ {α : Type} {p : α → Prop}, ∀ x ∈ ([] : List α), p x :=
    fun x hx => absurd hx (by simp)
  unfold mapAnswer
  dsimp only
  split
  · cases hs : expectedShape task with
    | box => exact ⟨fun d hd => abs_parseBoxes_px_le hw hh hd, hempty⟩
    | point => exact ⟨hempty, fun p hp => abs_parsePoints_px_le hw hh hp⟩
  · split <;> exact ⟨hempty, hempty⟩

/-- The image's sides are below 2^32 by `MetaOk`, and so is everything computed from them. -/
theorem bounded_of_run {Image Inputs : Type} {eng : Engine Image Inputs} {call : EngineCall}
    {r : InferenceResult} (hrun : eng.run call = .ok r) (hmeta : MetaOk r) : Bounded r := by
  obtain ⟨image, task, plan, -, answer, latency_ms, label, -, -, -, rfl⟩ := Engine.run_eq_ok hrun
  obtain ⟨hsize, -⟩ :=
    mapAnswer_image_size (frameOf eng.toPil image plan latency_ms) task label answer
  have hw := hmeta.width
  have hh := hmeta.height
  rw [hsize] at hw hh
  exact bounded_mapAnswer hw hh task label answer

/-! ## Every reply -/

/-- Through the untyped parse, whose `ok` is taken out, the reply is read. The untyped parse
    keeps the last of repeated members, so that it loses nothing rests on there being none. -/
theorem Represents.ofMembers {members : List (Str × Json Str)} {r : Response} {ok : Bool}
    (h : Represents members r) (hnr : NoRepeat (.obj (("ok".toList, .bool ok) :: members))) :
    Response.ofMembers (Json.erase "ok".toList
      (Json.toMap (Json.entries (("ok".toList, .bool ok) :: members)))) = some r := by
  let T := Edge.responseTagged .verbatim
  have hfresh : "ok".toList ∉ members.map Prod.fst := (List.nodup_cons.mp hnr.keys).1
  have herase : Json.erase "ok".toList (("ok".toList, Json.bool ok) :: members) = members := by
    rw [Json.erase, List.filter_cons_of_neg (by simp)]
    exact Json.erase_eq_self hfresh
  have hperm := Json.erase_toMap_perm (k := "ok".toList) hnr
  rw [herase] at hperm
  have hmembers : members.Perm (r.members .verbatim) := by
    have := h.members .verbatim
    rw [printedMembers_verbatim] at this
    exact this.symm
  have hnr' : NoRepeat (.obj members) := herase ▸ hnr.erase
  calc Response.ofMembers _ = T.ofMembers _ := (Edge.responseTagged_ofMembers .verbatim _).symm
    _ = T.ofMembers (Json.toMap (Json.entries members)) :=
      T.ofMembers_congr (Json.toMap_nodup _) hperm
    _ = T.ofMembers members := T.ofMembers_value hnr'
    _ = T.ofMembers (r.members .verbatim) := T.ofMembers_congr (T.members_nodup r) hmembers
    _ = some r := by
      rw [Edge.responseTagged_ofMembers]
      exact Edge.ofMembers_verbatim r

theorem Forwarded.infer {doc : Json Str} {r : Response} (h : Forwarded doc r)
    {fromSlice : List UInt8 → Option (Json Str)} {bytes : List UInt8}
    (hread : fromSlice bytes = some doc) : Edge.infer fromSlice (.reply bytes) = .ok r := by
  obtain ⟨hnr, members, rfl, hrep⟩ := h
  refine (Edge.decodeReply_eq_ok_iff _).mpr ⟨_, _, !r.isError, hread, rfl, ?_,
    hrep.ofMembers hnr, by simp⟩
  rw [Json.get_toMap_entries hnr]
  rfl

/-- Every reply to a Frame is an error, which is forwarded as it stands, or a success body. -/
theorem exists_forwarded {Image Inputs : Type} (py : Python) (eng : Engine Image Inputs)
    (header : Dict) (jpeg : Framing.Bytes) (total_ms : Option ℚ)
    (hblocks : ∀ job r, admission header jpeg = .ok job → eng.run job.call = .ok r →
      blockCount r.raw_answer < 2 ^ 32) :
    ∃ r, Forwarded (frameReply py eng header jpeg total_ms) r := by
  unfold frameReply Worker.infer
  cases hadm : admission header jpeg with
  | error p =>
    obtain ⟨frame_id, refusal⟩ := p
    obtain ⟨code, hcode⟩ := code_of_refusal refusal
    dsimp only
    rw [hcode]
    exact ⟨_, forwarded_frameError _ _ code⟩
  | ok job =>
    cases total_ms with
    | none => exact ⟨_, forwarded_frameError _ _ .internal⟩
    | some total_ms =>
      dsimp only
      cases hrun : eng.run job.call with
      | error e =>
        simp only [outcomeOf]
        cases e.toFault py with
        | valueError text => exact ⟨_, forwarded_frameError _ _ .invalidImage⟩
        | _ => exact ⟨_, forwarded_frameError _ _ .internal⟩
      | ok r =>
        obtain ⟨hmode, hmeta, task, -, hr⟩ := metaOk_of_run hrun (hblocks job r hadm hrun)
        simp only [outcomeOf, inferReply]
        by_cases hkind : r.kind = .deviation
        · rw [if_pos hkind]
          obtain ⟨m, hm⟩ := hr.message hkind
          rw [hm]
          exact ⟨_, forwarded_frameError _ _ .modelDeviation⟩
        · rw [if_neg hkind]
          exact forwarded_successBody total_ms hmode hmeta hr hkind (bounded_of_run hrun hmeta)

/-- **The edge is transparent.** Whatever the worker replies to a Frame is accepted, and the client
    gets its members but for `ok`, with the floats written again, and can read them. -/
theorem egress_transparent {Image Inputs : Type} (py : Python) (eng : Engine Image Inputs)
    (header : Dict) (jpeg : Framing.Bytes) (total_ms : Option ℚ)
    (hblocks : ∀ job r, admission header jpeg = .ok job → eng.run job.call = .ok r →
      blockCount r.raw_answer < 2 ^ 32) :
    ∃ members r, frameReply py eng header jpeg total_ms =
        .obj (("ok".toList, .bool !r.isError) :: members) ∧
      (∀ (fromSlice : List UInt8 → Option (Json Str)) (bytes : List UInt8),
        fromSlice bytes = some (frameReply py eng header jpeg total_ms) →
          Edge.infer fromSlice (.reply bytes) = .ok r) ∧
      ∀ fl, ∃ written, (∀ toText, Edge.serializeResponse fl toText r = toText (.obj written)) ∧
        written.Perm (printedMembers fl members) ∧
        Response.ofMembers written = some (r.printed fl) := by
  obtain ⟨r, hf⟩ := exists_forwarded py eng header jpeg total_ms hblocks
  obtain ⟨-, members, hdoc, hrep⟩ := id hf
  refine ⟨members, r, hdoc, fun fromSlice bytes hread => hf.infer hread, fun fl =>
    ⟨r.members fl, fun _ => rfl, hrep.members fl, ?_⟩⟩
  rw [← Edge.responseTagged_ofMembers fl, Response.members, Json.Tagged.ofMembers_members,
    Edge.readBack_response]
  exact ⟨fun x hx => (hrep.small x hx).finite fl, rfl⟩

theorem egress_transparent_sample :
    ∃ (members written : Dict) (r : Response), frameReply plainPython (sampleEngine (640, 480) sampleAnswer)
        (sampleHeader "point".toList) [0xFF, 0xD8, 0xFF, 0xE0] (some 300) =
        .obj (("ok".toList, .bool !r.isError) :: members) ∧
      Response.ofMembers written = some (r.printed .verbatim) := by
  obtain ⟨members, r, hdoc, -, hfl⟩ := egress_transparent plainPython
    (sampleEngine (640, 480) sampleAnswer) (sampleHeader "point".toList) [0xFF, 0xD8, 0xFF, 0xE0]
    (some 300) fun job r _ hrun => by
      obtain ⟨_, _, _, _, _, _, _, -, -, hgenerate, rfl⟩ := Engine.run_eq_ok hrun
      obtain ⟨rfl, rfl⟩ := Prod.mk.inj (Except.ok.inj hgenerate)
      rw [mapAnswer_raw_answer]
      decide +kernel
  obtain ⟨written, -, -, hread⟩ := hfl .verbatim
  exact ⟨members, written, r, hdoc, hread⟩

end LocateAnything.Bridge
