import LocateAnything.Edge.Wire

/-!
# `reference_client.py`: what is read

`receiver` reads a reply by its tag, looks up the members it prints and trusts that they are
there; where one is not, the exception ends the session. No reply that the server serializes
has it fail (`receive_members`).

The client has no schema. It is documentation that runs, and shows which members a client may
count on; the theorem says that the server keeps to it, for each of the four kinds of replies.
The lookups are Python's, with the exceptions of a missing key, of a number where a list is
expected, and of a reply that is no object, since a proof that none is raised has to have
them. A line of the log is kept with what it prints, as JSON: the format is `logging`'s
affair.
-/

set_option autoImplicit false

namespace LocateAnything.Client

open Edge (Floats Response)

/-- What `receiver` can raise. -/
inductive ReceiverFault where
  /-- `obj.get` of what is not a dict. -/
  | attribute
  | key (key : Str)
  | type
  deriving DecidableEq

/-- Boxes or points. -/
inductive Geometry where
  | boxes
  | points
  deriving DecidableEq

/-- The tag, and the member that holds the items. -/
def Geometry.key : Geometry → Str
  | boxes => "boxes".toList
  | points => "points".toList

/-- The member of an item that is printed. -/
def Geometry.px : Geometry → Str
  | boxes => "bbox_px".toList
  | points => "point_px".toList

/-- What `receiver` logs. -/
inductive LogLine where
  /-- `frame %s: BOXES n=%d / dropped=%d / trunc=%s / %.1f ms`, or `POINTS` -/
  | found (g : Geometry) (frame_id : Json Str) (n : Nat) (dropped truncated latency_ms : Json Str)
  /-- `  %s @ px=%s` -/
  | item (label px : Json Str)
  | abstained (frame_id latency_ms : Json Str)
  | error (frame_id code message : Json Str)
  | unrecognised (type obj : Json Str)

/-- `obj.get(key)`, on a dict -/
def getOrNone (key : Str) (members : List (Str × Json Str)) : Json Str :=
  (Json.get key members).getD .null

/-- `obj[key]` -/
def getItem (key : Str) : Json Str → Except ReceiverFault (Json Str)
  | .obj members =>
    match Json.get key members with
    | some v => .ok v
    | none => .error (.key key)
  | _ => .error .type

/-- `len(x)` -/
def pyLen : Json Str → Except ReceiverFault Nat
  | .arr elems => .ok elems.length
  | .obj members => .ok members.length
  | .str s => .ok s.length
  | _ => .error .type

/-- `x[:3]` -/
def firstThree : Json Str → Except ReceiverFault (List (Json Str))
  | .arr elems => .ok (elems.take 3)
  | .str s => .ok ((s.take 3).map fun c => .str [c])
  | _ => .error .type

/-- `log.info("  %s @ px=%s", item["label"], item[px])` -/
def itemLine (g : Geometry) (item : Json Str) : Except ReceiverFault LogLine := do
  let label ← getItem "label".toList item
  let px ← getItem g.px item
  return .item label px

/-- The branch of a tag with geometry. -/
def receiveFound (g : Geometry) (obj frame_id : Json Str) :
    Except ReceiverFault (List LogLine) := do
  let items ← getItem g.key obj
  let n ← pyLen items
  let dropped ← getItem "deviations_dropped".toList obj
  let truncated ← getItem "model_output_truncated".toList obj
  let latency_ms ← getItem "latency_ms".toList obj
  let lines ← (← firstThree items).mapM (itemLine g)
  return .found g frame_id n dropped truncated latency_ms :: lines

/-- A turn of `receiver`, behind `json.loads`. A tag that is no string equals none of the
    names and comes to the last branch, as an unknown one does. -/
def receive (obj : Json Str) : Except ReceiverFault (List LogLine) :=
  match obj with
  | .obj members =>
    let t := getOrNone "type".toList members
    let frame_id := getOrNone "frame_id".toList members
    let tag := match t with
      | .str s => s
      | _ => []
    if tag = "boxes".toList then receiveFound .boxes obj frame_id
    else if tag = "points".toList then receiveFound .points obj frame_id
    else if tag = "abstained".toList then do
      let latency_ms ← getItem "latency_ms".toList obj
      return [.abstained frame_id latency_ms]
    else if tag = "error".toList then
      .ok [.error frame_id (getOrNone "code".toList members) (getOrNone "message".toList members)]
    else .ok [.unrecognised t obj]
  | _ => .error .attribute

/-! ## Replies -/

variable (fl : Floats)

/-- The line of a reply with geometry. -/
def foundLine (g : Geometry) (frame_id : Str) (n : Nat) (m : Edge.Meta) : LogLine :=
  .found g (.str frame_id) n (Edge.u32Codec.write m.deviations_dropped)
    (.bool m.model_output_truncated) ((Edge.f64Codec fl).write m.latency_ms)

/-- What is logged of a reply. Of its items three are shown. -/
def linesOf : Response → List LogLine
  | .boxes b => foundLine fl .boxes b.frame_id b.boxes.length b.flat ::
      (b.boxes.take 3).map fun box =>
        .item (.str box.label) (((Edge.f32Codec fl).tuple 4).write box.bbox_px)
  | .points b => foundLine fl .points b.frame_id b.points.length b.flat ::
      (b.points.take 3).map fun point =>
        .item (.str point.label) (((Edge.f32Codec fl).tuple 2).write point.point_px)
  | .abstained b => [.abstained (.str b.frame_id) ((Edge.f64Codec fl).write b.flat.latency_ms)]
  | .error b => [.error (.str b.frame_id) (.str b.code.asWire) (.str b.message)]

theorem mapM_write {α β ε : Type} {write : α → Json Str} {read : Json Str → Except ε β}
    {line : α → β} (h : ∀ a, read (write a) = .ok (line a)) (as : List α) :
    (as.map write).mapM read = .ok (as.map line) := by
  induction as with
  | nil => rfl
  | cons a as ih =>
    rw [List.map_cons, List.mapM_cons, h, ih]
    rfl

/-- A reply with geometry is logged if its items can be. -/
theorem receiveFound_members {α : Type} {g : Geometry} {obj : Json Str} {frame_id : Str}
    {items : List α} {write : α → Json Str} {line : α → LogLine} {m : Edge.Meta}
    (hitems : getItem g.key obj = .ok (.arr (items.map write)))
    (hdropped : getItem "deviations_dropped".toList obj =
      .ok (Edge.u32Codec.write m.deviations_dropped))
    (htruncated : getItem "model_output_truncated".toList obj =
      .ok (.bool m.model_output_truncated))
    (hlatency : getItem "latency_ms".toList obj = .ok ((Edge.f64Codec fl).write m.latency_ms))
    (hline : ∀ item, itemLine g (write item) = .ok (line item)) :
    receiveFound g obj (.str frame_id) =
      .ok (foundLine fl g frame_id items.length m :: (items.take 3).map line) := by
  have hlines := mapM_write hline (items.take 3)
  rw [List.map_take] at hlines
  simp only [receiveFound, hitems, pyLen, hdropped, htruncated, hlatency, firstThree, hlines,
    List.length_map, foundLine, bind, Except.bind, pure, Except.pure]

/-- **The receiver does not fail on a reply of the server**, and logs what it says. -/
theorem receive_members (r : Response) : receive (.obj (r.members fl)) = .ok (linesOf fl r) := by
  cases r with
  | boxes b => exact receiveFound_members fl rfl rfl rfl rfl fun _ => rfl
  | points b => exact receiveFound_members fl rfl rfl rfl rfl fun _ => rfl
  | abstained b => rfl
  | error b => rfl

end LocateAnything.Client
