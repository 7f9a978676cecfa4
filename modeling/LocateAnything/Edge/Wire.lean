import LocateAnything.Edge.Ws
import LocateAnything.Lib.Codec
import Mathlib.Algebra.Order.Ring.Rat

/-!
# `protocol.rs`: what is written

The writers derived for `Response` and `InferHeader`, beside the parsers. The edge parses a reply
of the worker only to write it again for the client, so that what a client can read is decided
twice: by what the edge has accepted, and by what `serde_json` writes for it. All but the floats is
written as it was read. A pixel coordinate is an `f32`: one beyond its range is infinite, is written
as `null`, and leaves a reply no client can read.

The numbers of a reply are kept as the document has them, and `Floats` says what becomes of them:
the float each one is read as, and the digits written for that float. Nothing is assumed of how
`serde_json` reads, which without its `float_roundtrip` may miss the nearest float. What a client
is promised is therefore stated for a client whose own reader rounds correctly (`Floats.Rounding`):
it gets the very floats the edge had (`serialized_readable_iff`).

Each struct is one codec, a composition of its fields in the order of the source, and each has one
lemma on what comes back of it, put together the same way.
-/

set_option autoImplicit false

namespace LocateAnything.Edge

open Json (Number NoRepeat Codec FieldsCodec Tagged)
open Json.Codec (readsBack_string readsBack_self readsBack_tuple readsBack_vec)
open Json.FieldsCodec (done field readsBack_done readsBack_field readsBack_map readsBack_record)

/-- The floats of the edge. `read32` and `read64` are how `serde_json` takes a number of a
    document for an `f32` or an `f64`, `print32` and `print64` the shortest digits it writes
    for one, none for an infinite `f32`. Which float a number is read as is left open. A
    number beyond the range of `f64` is an error of the parser and reaches no reply; one
    beyond that of `f32` does, and the bound of `f32_finite` is well within it. -/
structure Floats where
  F32 : Type
  F64 : Type
  read32 : Number → F32
  print32 : F32 → Option Number
  read64 : Number → F64
  print64 : F64 → Number
  f32_finite : ∀ x : ℚ, |x| ≤ 2 ^ 127 → (print32 (read32 (.float x))).isSome

namespace Floats

/-- The digits a pixel coordinate is written in, if it is finite: read, and printed again. -/
def f32 (fl : Floats) (x : Number) : Option Number := fl.print32 (fl.read32 x)

/-- The digits any other float is written in. -/
def f64 (fl : Floats) (x : Number) : Number := fl.print64 (fl.read64 x)

/-- Floats as they stand: the format under which a document is written as it was read, and so
    the one to use where floats are of no concern. -/
def verbatim : Floats where
  F32 := Number
  F64 := Number
  read32 := id
  print32 := some
  read64 := id
  print64 := id
  f32_finite _ _ := rfl

/-- A reader that rounds correctly: it takes the digits written for a float for that float,
    since they are chosen so that no other float is as near. Its fields are data and their two
    laws, so that a client's reader can be given by what it is. -/
structure Rounding (fl : Floats) where
  near32 : Number → fl.F32
  near64 : Number → fl.F64
  near32_print : ∀ v y, fl.print32 v = some y → near32 y = v
  near64_print : ∀ v, near64 (fl.print64 v) = v

end Floats

section Codecs
variable (fl : Floats)

/-- The one codec of a reply that does not bring back what it is given. -/
def f32Codec : Codec Str Number := .float fl.f32

def f64Codec : Codec Str Number := .float fun x => some (fl.f64 x)

def u16Codec : Codec Str U16 := .uint (2 ^ 16)

def u32Codec : Codec Str U32 := .uint (2 ^ 32)

/-! ## Replies -/

theorem GenerationMode.wireName_injective : Function.Injective GenerationMode.wireName := by
  intro m m' h
  cases m <;> cases m' <;> first | rfl | exact absurd h (by decide)

theorem ErrorCode.asWire_injective : Function.Injective ErrorCode.asWire := by
  intro c c' h
  cases c <;> cases c' <;> first | rfl | exact absurd h (by decide)

theorem ResponseType.wireName_injective : Function.Injective ResponseType.wireName := by
  intro t t' h
  cases t <;> cases t' <;> first | rfl | exact absurd h (by decide)

def generationModeCodec : Codec Str GenerationMode :=
  .variant [.fast, .hybrid, .slow] GenerationMode.wireName (by intro m; cases m <;> decide)
    GenerationMode.wireName_injective

def errorCodeCodec : Codec Str ErrorCode :=
  .variant [.invalidRequest, .invalidImage, .modelDeviation, .internal] ErrorCode.asWire
    (by intro c; cases c <;> decide) ErrorCode.asWire_injective

/-- `LabeledBox`, field by field as it is declared. The reader of this codec is the one of
    `protocol.rs`. -/
def labeledBoxCodec : Codec Str LabeledBox :=
  FieldsCodec.record
    ((field "label".toList .string <| field "bbox_norm".toList (.tuple u16Codec 4) <|
      field "bbox_px".toList (.tuple (f32Codec fl) 4) done).map
      (fun (label, norm, px, _) => ⟨label, norm, px⟩) (fun b => (b.label, b.bbox_norm, b.bbox_px, ()))
      fun _ => rfl)
    (of_decide_eq_true rfl)

def labeledPointCodec : Codec Str LabeledPoint :=
  FieldsCodec.record
    ((field "label".toList .string <| field "point_norm".toList (.tuple u16Codec 2) <|
      field "point_px".toList (.tuple (f32Codec fl) 2) done).map
      (fun (label, norm, px, _) => ⟨label, norm, px⟩)
      (fun p => (p.label, p.point_norm, p.point_px, ())) fun _ => rfl)
    (of_decide_eq_true rfl)

def resizePlanCodec : Codec Str ResizePlan :=
  FieldsCodec.record
    ((field "dst_w".toList u32Codec <| field "dst_h".toList u32Codec <|
      field "n_llm_tokens".toList u32Codec <| field "scale".toList (f64Codec fl) done).map
      (fun (w, h, tokens, scale, _) => ⟨w, h, tokens, scale⟩)
      (fun p => (p.dst_w, p.dst_h, p.n_llm_tokens, p.scale, ())) fun _ => rfl)
    (of_decide_eq_true rfl)

/-- `Meta` is only ever flattened into a body, so it has fields and no document of its own. -/
def metaCodec : FieldsCodec Str Meta :=
  (field "raw_text".toList .string <| field "model_output_truncated".toList .bool <|
    field "deviations_dropped".toList u32Codec <|
    field "image_size".toList (.tuple u32Codec 2) <|
    field "resize_plan".toList (resizePlanCodec fl) <|
    field "generation_mode_used".toList generationModeCodec <|
    field "latency_ms".toList (f64Codec fl) <| field "total_ms".toList (f64Codec fl) done).map
    (fun (raw, truncated, dropped, size, plan, mode, latency, total, _) =>
      ⟨raw, truncated, dropped, size, plan, mode, latency, total⟩)
    (fun m => (m.raw_text, m.model_output_truncated, m.deviations_dropped, m.image_size,
      m.resize_plan, m.generation_mode_used, m.latency_ms, m.total_ms, ()))
    fun _ => rfl

def boxesBodyCodec : FieldsCodec Str BoxesBody :=
  (field "frame_id".toList .string <|
    field "boxes".toList (.vec (labeledBoxCodec fl)) (metaCodec fl)).map
    (fun (frame_id, boxes, flat) => ⟨frame_id, boxes, flat⟩)
    (fun b => (b.frame_id, b.boxes, b.flat)) fun _ => rfl

def pointsBodyCodec : FieldsCodec Str PointsBody :=
  (field "frame_id".toList .string <|
    field "points".toList (.vec (labeledPointCodec fl)) (metaCodec fl)).map
    (fun (frame_id, points, flat) => ⟨frame_id, points, flat⟩)
    (fun b => (b.frame_id, b.points, b.flat)) fun _ => rfl

def abstainedBodyCodec : FieldsCodec Str AbstainedBody :=
  (field "frame_id".toList .string (metaCodec fl)).map
    (fun (frame_id, flat) => ⟨frame_id, flat⟩) (fun b => (b.frame_id, b.flat)) fun _ => rfl

def errorBodyCodec : FieldsCodec Str ErrorBody :=
  (field "frame_id".toList .string <| field "code".toList errorCodeCodec <|
    field "message".toList .string done).map
    (fun (frame_id, code, message, _) => ⟨frame_id, code, message⟩)
    (fun b => (b.frame_id, b.code, b.message, ())) fun _ => rfl

/-- The struct of a variant. -/
def ResponseType.Body : ResponseType → Type
  | boxes => BoxesBody
  | points => PointsBody
  | abstained => AbstainedBody
  | error => ErrorBody

def ResponseType.codec : ∀ t : ResponseType, FieldsCodec Str t.Body
  | boxes => boxesBodyCodec fl
  | points => pointsBodyCodec fl
  | abstained => abstainedBodyCodec fl
  | error => errorBodyCodec

def ResponseType.make : ∀ t : ResponseType, t.Body → Response
  | boxes => .boxes
  | points => .points
  | abstained => .abstained
  | error => .error

def Response.split : Response → Σ t : ResponseType, t.Body
  | boxes b => ⟨.boxes, b⟩
  | points b => ⟨.points, b⟩
  | abstained b => ⟨.abstained, b⟩
  | error b => ⟨.error, b⟩

/-- `Response`, with its tag. The members of a variant stand beside the tag in one object. -/
def responseTagged : Tagged Str Response where
  tag := "type".toList
  Variant := ResponseType
  all := [.boxes, .points, .abstained, .error]
  name := ResponseType.wireName
  Body := ResponseType.Body
  fields := ResponseType.codec fl
  make := ResponseType.make
  split := Response.split
  mem_all t := by cases t <;> decide
  name_injective := ResponseType.wireName_injective
  nodup t := by cases t <;> exact of_decide_eq_true rfl
  split_make t b := by cases t <;> rfl

/-- The members of the object a reply is written as. -/
def Response.members (r : Response) : List (Str × Json Str) := (responseTagged fl).members r

/-- `serialize_response`, with the text `serde_json::to_string` makes of a document. Its other arm
    answers an error of `to_string`, which comes from a key that is no string or from a writer of
    one's own; a `Response` has neither. -/
def serializeResponse (toText : Json Str → Str) (r : Response) : Str := toText (.obj (r.members fl))

/-! ## What is read back -/

/-- The reader of the codecs is the reader of `Protocol`, variant by variant. -/
theorem codec_ofMembers (t : ResponseType) (members : List (Str × Json Str)) :
    ((t.codec fl).ofMembers members).map t.make = t.fields.ofMembers members := by
  cases t <;> exact Option.map_bind

theorem responseTagged_ofMembers (members : List (Str × Json Str)) :
    (responseTagged fl).ofMembers members = Response.ofMembers members := by
  have htag : (responseTagged fl).tag = "type".toList := rfl
  have hname : ∀ s, (responseTagged fl).ofName? s = ResponseType.ofWireName? s := by
    intro s
    apply Option.ext
    intro t
    exact (Tagged.ofName?_eq_some_iff _).trans ResponseType.ofWireName?_eq_some_iff.symm
  unfold Tagged.ofMembers Response.ofMembers
  rw [htag]
  cases Json.get "type".toList members with
  | none => rfl
  | some v =>
    cases v with
    | str s =>
      show Option.bind _ _ = Option.bind _ _
      rw [hname]
      exact congrArg _ (funext fun t => codec_ofMembers fl t _)
    | _ => rfl

/-- The `f64`s of a reply; an error has none. -/
def Meta.doubles (m : Meta) : List Number := [m.resize_plan.scale, m.latency_ms, m.total_ms]

/-- The `f64`s of a reply; an error has none. -/
def Response.doubles : Response → List Number
  | boxes b => b.flat.doubles
  | points b => b.flat.doubles
  | abstained b => b.flat.doubles
  | error _ => []

/-- The pixel coordinates of a reply: its `f32`s. -/
def Response.pixels : Response → List Number
  | boxes b => b.boxes.flatMap fun box => box.bbox_px.toList
  | points b => b.points.flatMap fun point => point.point_px.toList
  | _ => []

def LabeledBox.printed (b : LabeledBox) : LabeledBox :=
  { b with bbox_px := b.bbox_px.map fun x => (fl.f32 x).getD x }

def LabeledPoint.printed (p : LabeledPoint) : LabeledPoint :=
  { p with point_px := p.point_px.map fun x => (fl.f32 x).getD x }

def Meta.printed (m : Meta) : Meta :=
  { m with
    resize_plan := { m.resize_plan with scale := fl.f64 m.resize_plan.scale }
    latency_ms := fl.f64 m.latency_ms
    total_ms := fl.f64 m.total_ms }

/-- A reply with its floats as the digits name them. Nothing but the floats is changed. -/
def Response.printed : Response → Response
  | boxes b => boxes { b with boxes := b.boxes.map (LabeledBox.printed fl), flat := b.flat.printed fl }
  | points b =>
    points { b with points := b.points.map (LabeledPoint.printed fl), flat := b.flat.printed fl }
  | abstained b => abstained { b with flat := b.flat.printed fl }
  | error b => error b

theorem readsBack_f32 :
    (f32Codec fl).ReadsBack (fun x => (fl.f32 x).isSome) fun x => (fl.f32 x).getD x := by
  intro x y
  show fl.f32 x = some y ↔ _
  cases hx : fl.f32 x <;> simp [hx]

theorem readsBack_f64 : (f64Codec fl).ReadsBack (fun _ => True) fl.f64 := by
  intro x y
  show some (fl.f64 x) = some y ↔ _
  simp

theorem readsBack_uints (bound n : Nat) :
    ((Codec.uint (κ := Str) bound).tuple n).ReadsBack (fun _ => True) id :=
  (Codec.readsBack_tuple (Codec.readsBack_self fun _ => rfl)).congr (by simp) (by simp)

theorem readsBack_labeledBox : (labeledBoxCodec fl).ReadsBack
    (fun b => ∀ x ∈ b.bbox_px.toList, (fl.f32 x).isSome) (LabeledBox.printed fl) := by
  have hpx := readsBack_field "bbox_px".toList (readsBack_tuple (n := 4) (readsBack_f32 fl))
    readsBack_done
  have hnorm := readsBack_field "bbox_norm".toList (readsBack_uints (2 ^ 16) 4) hpx
  have hall := readsBack_field "label".toList readsBack_string hnorm
  exact (readsBack_record (readsBack_map hall fun _ => rfl) _).congr (by simp) (by simp [LabeledBox.printed])

theorem readsBack_labeledPoint : (labeledPointCodec fl).ReadsBack
    (fun p => ∀ x ∈ p.point_px.toList, (fl.f32 x).isSome) (LabeledPoint.printed fl) := by
  have hpx := readsBack_field "point_px".toList (readsBack_tuple (n := 2) (readsBack_f32 fl))
    readsBack_done
  have hnorm := readsBack_field "point_norm".toList (readsBack_uints (2 ^ 16) 2) hpx
  have hall := readsBack_field "label".toList readsBack_string hnorm
  exact (readsBack_record (readsBack_map hall fun _ => rfl) _).congr (by simp) (by simp [LabeledPoint.printed])

theorem readsBack_u32 : u32Codec.ReadsBack (fun _ => True) id := readsBack_self fun _ => rfl

theorem readsBack_resizePlan : (resizePlanCodec fl).ReadsBack (fun _ => True)
    fun p => { p with scale := fl.f64 p.scale } := by
  have hscale := readsBack_field "scale".toList (readsBack_f64 fl) readsBack_done
  have hall := readsBack_field "dst_w".toList readsBack_u32 <|
    readsBack_field "dst_h".toList readsBack_u32 <|
    readsBack_field "n_llm_tokens".toList readsBack_u32 hscale
  exact (readsBack_record (readsBack_map hall fun _ => rfl) _).congr (by simp) (by simp)

theorem readsBack_meta : (metaCodec fl).ReadsBack (fun _ => True) (Meta.printed fl) := by
  have hmode : generationModeCodec.ReadsBack (fun _ => True) id := readsBack_self fun _ => rfl
  have hbool : (Codec.bool (κ := Str)).ReadsBack (fun _ => True) id := readsBack_self fun _ => rfl
  have htimes := readsBack_field "latency_ms".toList (readsBack_f64 fl)
    (readsBack_field "total_ms".toList (readsBack_f64 fl) readsBack_done)
  have hplan := readsBack_field "resize_plan".toList (readsBack_resizePlan fl)
    (readsBack_field "generation_mode_used".toList hmode htimes)
  have hall := readsBack_field "raw_text".toList readsBack_string <|
    readsBack_field "model_output_truncated".toList hbool <|
    readsBack_field "deviations_dropped".toList readsBack_u32 <|
    readsBack_field "image_size".toList (readsBack_uints (2 ^ 32) 2) hplan
  exact FieldsCodec.ReadsBack.congr (readsBack_map hall fun _ => rfl) (by simp) (by simp [Meta.printed])

theorem readsBack_boxesBody : (boxesBodyCodec fl).ReadsBack
    (fun b => ∀ box ∈ b.boxes, ∀ x ∈ box.bbox_px.toList, (fl.f32 x).isSome)
    fun b => { b with boxes := b.boxes.map (LabeledBox.printed fl), flat := b.flat.printed fl } := by
  have hall := readsBack_field "frame_id".toList readsBack_string <|
    readsBack_field "boxes".toList (readsBack_vec (readsBack_labeledBox fl)) (readsBack_meta fl)
  exact FieldsCodec.ReadsBack.congr (readsBack_map hall fun _ => rfl) (by simp) (by simp)

theorem readsBack_pointsBody : (pointsBodyCodec fl).ReadsBack
    (fun b => ∀ p ∈ b.points, ∀ x ∈ p.point_px.toList, (fl.f32 x).isSome)
    fun b =>
      { b with points := b.points.map (LabeledPoint.printed fl), flat := b.flat.printed fl } := by
  have hall := readsBack_field "frame_id".toList readsBack_string <|
    readsBack_field "points".toList (readsBack_vec (readsBack_labeledPoint fl)) (readsBack_meta fl)
  exact FieldsCodec.ReadsBack.congr (readsBack_map hall fun _ => rfl) (by simp) (by simp)

theorem readsBack_abstainedBody : (abstainedBodyCodec fl).ReadsBack (fun _ => True)
    fun b => { b with flat := b.flat.printed fl } := by
  have hall := readsBack_field "frame_id".toList readsBack_string (readsBack_meta fl)
  exact FieldsCodec.ReadsBack.congr (readsBack_map hall fun _ => rfl) (by simp) (by simp)

theorem readsBack_errorBody : errorBodyCodec.ReadsBack (fun _ => True) id := by
  have hcode : errorCodeCodec.ReadsBack (fun _ => True) id := readsBack_self fun _ => rfl
  have hall := readsBack_field "frame_id".toList readsBack_string <|
    readsBack_field "code".toList hcode <|
    readsBack_field "message".toList readsBack_string readsBack_done
  exact FieldsCodec.ReadsBack.congr (readsBack_map hall fun _ => rfl) (by simp) (by simp)

/-- What comes back of a reply: all of it if every pixel coordinate is finite, else nothing. A
    single `null` among the coordinates costs the client the whole reply. -/
theorem readBack_response {r r' : Response} : (responseTagged fl).readBack r = some r' ↔
    (∀ x ∈ r.pixels, (fl.f32 x).isSome) ∧ r.printed fl = r' := by
  show Option.map _ _ = some r' ↔ _
  rw [Option.map_eq_some_iff]
  cases r with
  | boxes b =>
    simp only [Response.pixels, List.mem_flatMap, forall_exists_index, and_imp]
    show (∃ b', (boxesBodyCodec fl).readBack b = some b' ∧ Response.boxes b' = r') ↔ _
    simp only [readsBack_boxesBody fl _ _]
    constructor
    · rintro ⟨_, ⟨hpx, rfl⟩, rfl⟩
      exact ⟨fun x box hbox hx => hpx box hbox x hx, rfl⟩
    · rintro ⟨hpx, rfl⟩
      exact ⟨_, ⟨fun box hbox x hx => hpx x box hbox hx, rfl⟩, rfl⟩
  | points b =>
    simp only [Response.pixels, List.mem_flatMap, forall_exists_index, and_imp]
    show (∃ b', (pointsBodyCodec fl).readBack b = some b' ∧ Response.points b' = r') ↔ _
    simp only [readsBack_pointsBody fl _ _]
    constructor
    · rintro ⟨_, ⟨hpx, rfl⟩, rfl⟩
      exact ⟨fun x p hp hx => hpx p hp x hx, rfl⟩
    · rintro ⟨hpx, rfl⟩
      exact ⟨_, ⟨fun p hp x hx => hpx x p hp hx, rfl⟩, rfl⟩
  | abstained b =>
    show (∃ b', (abstainedBodyCodec fl).readBack b = some b' ∧ Response.abstained b' = r') ↔ _
    simp only [readsBack_abstainedBody fl _ _, Response.pixels]
    simp [Response.printed]
  | error b =>
    show (∃ b', errorBodyCodec.readBack b = some b' ∧ Response.error b' = r') ↔ _
    simp only [readsBack_errorBody _ _, Response.pixels]
    simp [Response.printed]

theorem printed_verbatim (r : Response) : r.printed .verbatim = r := by
  have hbox : LabeledBox.printed .verbatim = id :=
    funext fun b => congrArg (LabeledBox.mk b.label b.bbox_norm) (List.Vector.map_id _)
  have hpoint : LabeledPoint.printed .verbatim = id :=
    funext fun p => congrArg (LabeledPoint.mk p.label p.point_norm) (List.Vector.map_id _)
  cases r with
  | boxes b => rw [Response.printed, hbox, List.map_id]; rfl
  | points b => rw [Response.printed, hpoint, List.map_id]; rfl
  | abstained b => rfl
  | error b => rfl

theorem ofMembers_verbatim (r : Response) :
    Response.ofMembers (r.members .verbatim) = some r := by
  rw [← responseTagged_ofMembers .verbatim, Response.members, Tagged.ofMembers_members,
    readBack_response, printed_verbatim]
  exact ⟨fun _ _ => rfl, rfl⟩

theorem printed_doubles (r : Response) : (r.printed fl).doubles = r.doubles.map fl.f64 := by
  cases r <;> rfl

theorem printed_pixels (r : Response) :
    (r.printed fl).pixels = r.pixels.map fun x => (fl.f32 x).getD x := by
  cases r with
  | boxes b =>
    simp only [Response.printed, Response.pixels, List.flatMap_map, List.map_flatMap]
    exact congrArg (List.flatMap · b.boxes) (funext fun box => by
      simp [LabeledBox.printed, List.Vector.toList_map])
  | points b =>
    simp only [Response.printed, Response.pixels, List.flatMap_map, List.map_flatMap]
    exact congrArg (List.flatMap · b.points) (funext fun point => by
      simp [LabeledPoint.printed, List.Vector.toList_map])
  | abstained b => rfl
  | error b => rfl

/-- A reader that rounds correctly takes what was printed for the floats the edge had. -/
theorem near_printed {r : Response} (near : fl.Rounding)
    (hpx : ∀ x ∈ r.pixels, (fl.f32 x).isSome) :
    (r.printed fl).pixels.map near.near32 = r.pixels.map fl.read32 ∧
      (r.printed fl).doubles.map near.near64 = r.doubles.map fl.read64 := by
  constructor
  · rw [printed_pixels, List.map_map]
    refine List.map_congr_left fun x hx => ?_
    obtain ⟨y, hy⟩ := Option.isSome_iff_exists.mp (hpx x hx)
    have hget : (fl.f32 x).getD x = y := by rw [hy]; rfl
    exact (congrArg near.near32 hget).trans (near.near32_print _ y hy)
  · rw [printed_doubles, List.map_map]
    exact List.map_congr_left fun x _ => near.near64_print _

/-- **A reply can be read again exactly if its pixel coordinates are finite**, and is then the
    reply itself with its floats as printed, which a reader that rounds correctly takes for the
    floats the edge had. -/
theorem serialized_readable_iff (r : Response) :
    ∃ members, (∀ toText, serializeResponse fl toText r = toText (.obj members)) ∧
      NoRepeat (.obj members) ∧
      Response.ofMembers (Json.toMap (Json.entries members)) = Response.ofMembers members ∧
      ((∃ r', Response.ofMembers members = some r') ↔ ∀ x ∈ r.pixels, (fl.f32 x).isSome) ∧
      ∀ r', Response.ofMembers members = some r' → r' = r.printed fl ∧
        ∀ near : fl.Rounding, r'.pixels.map near.near32 = r.pixels.map fl.read32 ∧
          r'.doubles.map near.near64 = r.doubles.map fl.read64 := by
  have hread : ∀ r', Response.ofMembers (r.members fl) = some r' ↔
      (∀ x ∈ r.pixels, (fl.f32 x).isSome) ∧ r.printed fl = r' := by
    intro r'
    rw [← responseTagged_ofMembers fl, Response.members,
      Tagged.ofMembers_members, readBack_response]
  have hnr := (responseTagged fl).noRepeat_members r
  refine ⟨r.members fl, fun _ => rfl, hnr, ?_, ?_, fun r' h => ?_⟩
  · rw [← responseTagged_ofMembers fl, ← responseTagged_ofMembers fl]
    exact (responseTagged fl).ofMembers_value hnr
  · simp only [hread]
    exact ⟨fun ⟨_, h, _⟩ => h, fun h => ⟨_, h, rfl⟩⟩
  · obtain ⟨hpx, rfl⟩ := (hread r').mp h
    exact ⟨rfl, fun near => near_printed fl near hpx⟩

end Codecs

/-! ## The header of a Frame -/

/-- What a request carries beside its tag. -/
def SlotOf : TemplateKind → Type
  | .detection => List Str
  | .sceneText => Unit
  | _ => Str

def detectionReq : FieldsCodec Str (List Str) :=
  (field "categories".toList (.vec .string) done).map Prod.fst (·, ()) fun _ => rfl

def phraseReq : FieldsCodec Str Str :=
  (field "phrase".toList .string done).map Prod.fst (·, ()) fun _ => rfl

def textReq : FieldsCodec Str Str :=
  (field "text".toList .string done).map Prod.fst (·, ()) fun _ => rfl

def descReq : FieldsCodec Str Str :=
  (field "description".toList .string done).map Prod.fst (·, ()) fun _ => rfl

def sceneTextReq : FieldsCodec Str Unit := done

def slotCodec : ∀ k : TemplateKind, FieldsCodec Str (SlotOf k)
  | .detection => detectionReq
  | .phraseSingle => phraseReq
  | .phraseMulti => phraseReq
  | .textGrounding => textReq
  | .sceneText => sceneTextReq
  | .guiBox => descReq
  | .point => phraseReq

def PromptRequest.ofSlot : ∀ k : TemplateKind, SlotOf k → PromptRequest
  | .detection => .detection
  | .phraseSingle => .phraseSingle
  | .phraseMulti => .phraseMulti
  | .textGrounding => .textGrounding
  | .sceneText => fun _ => .sceneText
  | .guiBox => .guiBox
  | .point => .point

def PromptRequest.split : PromptRequest → Σ k : TemplateKind, SlotOf k
  | detection categories => ⟨.detection, categories⟩
  | phraseSingle phrase => ⟨.phraseSingle, phrase⟩
  | phraseMulti phrase => ⟨.phraseMulti, phrase⟩
  | textGrounding text => ⟨.textGrounding, text⟩
  | sceneText => ⟨.sceneText, ()⟩
  | guiBox description => ⟨.guiBox, description⟩
  | point phrase => ⟨.point, phrase⟩

/-- `PromptRequest`, tagged by its task. The structs of the variants deny unknown fields. -/
def promptRequest : Tagged Str PromptRequest where
  tag := "task".toList
  Variant := TemplateKind
  all := TemplateKind.all
  name := TemplateKind.wireName
  Body := SlotOf
  fields := slotCodec
  make := PromptRequest.ofSlot
  split := PromptRequest.split
  mem_all k := by cases k <;> decide
  name_injective _ _ h := TemplateKind.wireName_inj h
  nodup k := by cases k <;> exact of_decide_eq_true rfl
  split_make k _ := by cases k <;> rfl

/-- `InferHeader`, with `jpeg_len` a `usize`. -/
def headerFields : FieldsCodec Str InferHeader :=
  (field "frame_id".toList .string <| field "request".toList promptRequest.codec <|
    field "generation_mode".toList generationModeCodec <|
    field "jpeg_len".toList (.uint (2 ^ 64)) done).map
    (fun (frame_id, request, mode, len, _) => ⟨frame_id, request, mode, len⟩)
    (fun h => (h.frame_id, h.request, h.generation_mode, Fin.ofNat (2 ^ 64) h.jpeg_len, ()))
    fun (_, _, _, len, _) => by simp

theorem headerFields_nodup : headerFields.names.Nodup := of_decide_eq_true rfl

def inferHeader : Codec Str InferHeader := headerFields.record headerFields_nodup

theorem readsBack_detectionReq : detectionReq.ReadsBack (fun _ => True) id := by
  have hall := readsBack_field "categories".toList (readsBack_vec readsBack_string) readsBack_done
  exact FieldsCodec.ReadsBack.congr (readsBack_map hall fun _ => rfl) (by simp) (by simp)

theorem readBack_promptRequest (r : PromptRequest) : promptRequest.readBack r = some r := by
  cases r with
  | detection categories =>
    have h := (readsBack_detectionReq categories categories).mpr ⟨trivial, rfl⟩
    exact congrArg (Option.map PromptRequest.detection) h
  | _ => rfl

/-- A header is written as it can be read, if its length is one a `usize` holds. -/
theorem readBack_header {h : InferHeader} (hlen : h.jpeg_len < 2 ^ 64) :
    headerFields.readBack h = some h := by
  have hmode : generationModeCodec.ReadsBack (fun _ => True) id := readsBack_self fun _ => rfl
  have hlen' : (Codec.uint (κ := Str) (2 ^ 64)).ReadsBack (fun _ => True) id :=
    readsBack_self fun _ => rfl
  have hall := readsBack_field "frame_id".toList readsBack_string <|
    readsBack_field "request".toList (readsBack_self (c := promptRequest.codec)
      readBack_promptRequest) <|
    readsBack_field "generation_mode".toList hmode <|
    readsBack_field "jpeg_len".toList hlen' readsBack_done
  have hmod : h.jpeg_len % 18446744073709551616 = h.jpeg_len := Nat.mod_eq_of_lt hlen
  exact (readsBack_map hall _ h h).mpr ⟨by simp, by simp [hmod]⟩

/-- A header is read from its four members, in any order. -/
theorem parse_header {h : InferHeader} (hlen : h.jpeg_len < 2 ^ 64)
    {members : List (Str × Json Str)} (hp : members.Perm (headerFields.members h)) :
    inferHeader.parse (.obj members) = some h :=
  (headerFields.ofMembers_perm headerFields_nodup hp).trans (readBack_header hlen)

end LocateAnything.Edge
