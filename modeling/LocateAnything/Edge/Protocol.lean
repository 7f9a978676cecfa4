import LocateAnything.Lib.Derive
import LocateAnything.Text
import Mathlib.Data.Char

/-!
# `protocol.rs`: the reply

The four variants of `Response`, and the parsers derived for them. `Response` is tagged by its
`type` member; the success bodies flatten `Meta`, so that their objects hold the fields of the
body and those of `Meta` side by side and, by `deny_unknown_fields`, nothing else.

The derived parsers are not written out. Each is the library's parser at the fields of the
struct, in declaration order (`Lib/Fields`, `Lib/Derive`), so that the declaration can be
checked against the source line by line and what it accepts follows from the library's lemmas:
exactly the objects with these members, of these kinds (`Response.ofMembers_iff`). The order
of the fields is kept, because serde reads a struct from an array as well, and then the order
is all there is. That path is open to the nested structs only: a reply as a whole is an object
by the time it is parsed, since `ok` has been taken out of it.

Numbers are kept as the reader has sorted them, so that a field which is a `u16` or a `u32`
refuses a float and a negative number, and a field which is a float takes all three kinds.
-/

set_option autoImplicit false

namespace LocateAnything.Edge

open Json (Number Reader Fields)
open Json.Fields (done field)

abbrev U16 := Fin (2 ^ 16)

abbrev U32 := Fin (2 ^ 32)

def u16 : Reader Str U16 := .uint (2 ^ 16)

def u32 : Reader Str U32 := .uint (2 ^ 32)

inductive GenerationMode where
  | fast
  | hybrid
  | slow
  deriving DecidableEq, Repr

/-- The name under which serde reads and writes the variant; the worker is sent the same. -/
def GenerationMode.wireName : GenerationMode → Str
  | fast => "fast".toList
  | hybrid => "hybrid".toList
  | slow => "slow".toList

inductive ErrorCode where
  | invalidRequest
  | invalidImage
  | modelDeviation
  | internal
  deriving DecidableEq, Repr

/-- `ErrorCode::as_wire`. The worker spells the same four names for itself. -/
def ErrorCode.asWire : ErrorCode → Str
  | invalidRequest => "invalid_request".toList
  | invalidImage => "invalid_image".toList
  | modelDeviation => "model_deviation".toList
  | internal => "internal".toList

structure LabeledBox where
  label : Str
  bbox_norm : List.Vector U16 4
  bbox_px : List.Vector Number 4

structure LabeledPoint where
  label : Str
  point_norm : List.Vector U16 2
  point_px : List.Vector Number 2

structure ResizePlan where
  dst_w : U32
  dst_h : U32
  n_llm_tokens : U32
  scale : Number

structure Meta where
  raw_text : Str
  model_output_truncated : Bool
  deviations_dropped : U32
  image_size : List.Vector U32 2
  resize_plan : ResizePlan
  generation_mode_used : GenerationMode
  latency_ms : Number
  total_ms : Number

structure BoxesBody where
  frame_id : Str
  boxes : List LabeledBox
  flat : Meta

structure PointsBody where
  frame_id : Str
  points : List LabeledPoint
  flat : Meta

structure AbstainedBody where
  frame_id : Str
  flat : Meta

structure ErrorBody where
  frame_id : Str
  code : ErrorCode
  message : Str

inductive Response where
  | boxes (b : BoxesBody)
  | points (b : PointsBody)
  | abstained (b : AbstainedBody)
  | error (b : ErrorBody)

/-! ## The derived parsers -/

def generationMode : Reader Str GenerationMode :=
  .variant [.fast, .hybrid, .slow] GenerationMode.wireName

def errorCode : Reader Str ErrorCode :=
  .variant [.invalidRequest, .invalidImage, .modelDeviation, .internal] ErrorCode.asWire

def labeledBox : Reader Str LabeledBox :=
  Fields.record
    ((field "label".toList .string <| field "bbox_norm".toList (.tuple 4 u16) <|
      field "bbox_px".toList (.tuple 4 .float) done).map
      fun (label, norm, px, _) => ⟨label, norm, px⟩)
    (by decide)

def labeledPoint : Reader Str LabeledPoint :=
  Fields.record
    ((field "label".toList .string <| field "point_norm".toList (.tuple 2 u16) <|
      field "point_px".toList (.tuple 2 .float) done).map
      fun (label, norm, px, _) => ⟨label, norm, px⟩)
    (by decide)

def resizePlan : Reader Str ResizePlan :=
  Fields.record
    ((field "dst_w".toList u32 <| field "dst_h".toList u32 <|
      field "n_llm_tokens".toList u32 <| field "scale".toList .float done).map
      fun (w, h, tokens, scale, _) => ⟨w, h, tokens, scale⟩)
    (by decide)

/-- The fields of `Meta`; they are only ever flattened into a body. -/
def metaFields : Fields Str Meta :=
  (field "raw_text".toList .string <| field "model_output_truncated".toList .bool <|
    field "deviations_dropped".toList u32 <| field "image_size".toList (.tuple 2 u32) <|
    field "resize_plan".toList resizePlan <|
    field "generation_mode_used".toList generationMode <|
    field "latency_ms".toList .float <| field "total_ms".toList .float done).map
    fun (raw, truncated, dropped, size, plan, mode, latency, total, _) =>
      ⟨raw, truncated, dropped, size, plan, mode, latency, total⟩

def boxesBody : Fields Str BoxesBody :=
  (field "frame_id".toList .string <| field "boxes".toList (.vec labeledBox) metaFields).map
    fun (frame_id, boxes, flat) => ⟨frame_id, boxes, flat⟩

def pointsBody : Fields Str PointsBody :=
  (field "frame_id".toList .string <| field "points".toList (.vec labeledPoint) metaFields).map
    fun (frame_id, points, flat) => ⟨frame_id, points, flat⟩

def abstainedBody : Fields Str AbstainedBody :=
  (field "frame_id".toList .string metaFields).map fun (frame_id, flat) => ⟨frame_id, flat⟩

def errorBody : Fields Str ErrorBody :=
  (field "frame_id".toList .string <| field "code".toList errorCode <|
    field "message".toList .string done).map
    fun (frame_id, code, message, _) => ⟨frame_id, code, message⟩

/-- The values of the `type` tag. -/
inductive ResponseType where
  | boxes
  | points
  | abstained
  | error
  deriving DecidableEq, Repr

namespace ResponseType

def wireName : ResponseType → Str
  | boxes => "boxes".toList
  | points => "points".toList
  | abstained => "abstained".toList
  | error => "error".toList

def ofWireName? (s : Str) : Option ResponseType :=
  [boxes, points, abstained, error].find? fun t => t.wireName = s

/-- The fields next to the tag. -/
def fields : ResponseType → Fields Str Response
  | boxes => boxesBody.map .boxes
  | points => pointsBody.map .points
  | abstained => abstainedBody.map .abstained
  | error => errorBody.map .error

theorem ofWireName?_eq_some_iff {s : Str} {t : ResponseType} :
    ofWireName? s = some t ↔ s = t.wireName := by
  constructor
  · intro h
    have := List.find?_some h
    simpa [eq_comm] using this
  · rintro rfl
    cases t <;> decide

theorem fields_nodup (t : ResponseType) : t.fields.names.Nodup := by
  cases t <;> decide

end ResponseType

/-- The variant of a reply. -/
def Response.type : Response → ResponseType
  | boxes _ => .boxes
  | points _ => .points
  | abstained _ => .abstained
  | error _ => .error

def Response.frameId : Response → Str
  | boxes b => b.frame_id
  | points b => b.frame_id
  | abstained b => b.frame_id
  | error b => b.frame_id

/-- The parser derived for `Response`, on the members of an object. The tag is taken out first
    and the rest is read strictly, which is why a flattened struct may deny unknown fields
    here. -/
def Response.ofMembers (members : List (Str × Json Str)) : Option Response :=
  match Json.get "type".toList members with
  | some (.str tag) =>
    (ResponseType.ofWireName? tag).bind fun t =>
      t.fields.ofMembers (Json.erase "type".toList members)
  | _ => none

/-- The fields of a variant build that variant. -/
theorem ResponseType.type_of_fields {t : ResponseType} {members : List (Str × Json Str)}
    {r : Response} (h : t.fields.ofMembers members = some r) : r.type = t := by
  obtain ⟨xs, -, hb⟩ := Option.bind_eq_some_iff.mp h
  cases t <;>
  · obtain ⟨b, -, rfl⟩ := Option.map_eq_some_iff.mp hb
    rfl

theorem ResponseType.get_frame_id {t : ResponseType} {members : List (Str × Json Str)}
    {r : Response} (hm : (members.map Prod.fst).Nodup) (h : t.fields.ofMembers members = some r) :
    Json.get "frame_id".toList members = some (.str r.frameId) := by
  obtain ⟨xs, hv, hb⟩ := Option.bind_eq_some_iff.mp h
  obtain ⟨-, hperm⟩ := (Json.fieldValues_eq_some_iff t.fields_nodup).mp hv
  rw [Json.get_eq_some_iff hm]
  refine hperm.mem_iff.mpr ?_
  cases t <;>
  · obtain ⟨body, hbody, rfl⟩ := Option.map_eq_some_iff.mp hb
    obtain ⟨p, hp, rfl⟩ := Option.map_eq_some_iff.mp hbody
    obtain ⟨x, xs, rfl, hx, -⟩ := Fields.field_build_eq_some hp
    rw [Reader.string_parse_eq_some_iff.mp hx]
    exact List.mem_cons_self

theorem Response.ofMembers_eq_some {members : List (Str × Json Str)} {r : Response}
    (h : Response.ofMembers members = some r) :
    Json.get "type".toList members = some (.str r.type.wireName) ∧
      r.type.fields.ofMembers (Json.erase "type".toList members) = some r := by
  unfold Response.ofMembers at h
  split at h
  case h_2 => exact absurd h (by simp)
  rename_i tag htag
  obtain ⟨t, ht, hf⟩ := Option.bind_eq_some_iff.mp h
  obtain rfl := ResponseType.type_of_fields hf
  rw [ResponseType.ofWireName?_eq_some_iff] at ht
  exact ⟨by rw [htag, ht], hf⟩

/-- All four bodies have a `frame_id`, so it can be read off the members without knowing
    which. -/
theorem Response.get_frame_id {members : List (Str × Json Str)} {r : Response}
    (hm : (members.map Prod.fst).Nodup) (h : Response.ofMembers members = some r) :
    Json.get "frame_id".toList members = some (.str r.frameId) := by
  have := (ResponseType.get_frame_id (Json.erase_nodup hm) (Response.ofMembers_eq_some h).2)
  rwa [Json.get_erase (by decide)] at this

/-- A reply of type `t` is read from an object with that tag and exactly the fields of `t`. -/
theorem Response.ofMembers_iff {members : List (Str × Json Str)}
    (hm : (members.map Prod.fst).Nodup) {t : ResponseType} :
    (∃ r, Response.ofMembers members = some r ∧ r.type = t) ↔
      Json.Members (("type".toList, (· = .str t.wireName)) :: t.fields.types) members := by
  rw [Json.members_cons_iff hm]
  constructor
  · rintro ⟨r, hr, rfl⟩
    obtain ⟨htag, hf⟩ := Response.ofMembers_eq_some hr
    refine ⟨_, htag, rfl, ?_⟩
    rw [← Fields.ofMembers_isSome (ResponseType.fields_nodup _), hf]
    rfl
  · rintro ⟨_, hl, rfl, hf⟩
    rw [← Fields.ofMembers_isSome (ResponseType.fields_nodup _)] at hf
    obtain ⟨r, hr⟩ := Option.isSome_iff_exists.mp hf
    refine ⟨r, ?_, ResponseType.type_of_fields hr⟩
    rw [Response.ofMembers, hl]
    simp only [ResponseType.ofWireName?_eq_some_iff.mpr rfl, Option.bind_some, hr]

end LocateAnything.Edge
