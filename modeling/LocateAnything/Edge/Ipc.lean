import LocateAnything.Edge.Protocol
import LocateAnything.Lib.Checks

/-!
# `ipc.rs`: one exchange with the worker

`infer` sends a header and an image and reads one reply. The reply is parsed twice: into an
untyped value, out of which the `ok` member is taken, and from there into a `Response`. The second
parse is strict, but it no longer sees what the first one dropped: a repeated key.

`fromSlice` is the JSON reader of the crate, from bytes to the document they spell. What a reply
should look like is `Envelope`; `egress_strict_iff` says for which bytes only such replies get
through.
-/

set_option autoImplicit false

namespace LocateAnything.Edge

open Checks
open Json (NoRepeat)

/-- Why `infer` does not trust a reply. -/
inductive ReplyFault where
  /-- The bytes are no JSON. -/
  | json
  | okNotBool (got : Json Str)
  /-- There is no `ok`; the keys of the object, if it is one. -/
  | okMissing (keys : Option (List Str))
  /-- The members beside `ok` are no `Response`. -/
  | schema
  | contradiction (ok isError : Bool)

inductive TransportFault where
  | sendHeader
  | sendJpeg
  | closed
  | read
  deriving DecidableEq

inductive ServerError where
  | workerUnavailable (fault : TransportFault)
  | workerProtocol (fault : ReplyFault)

/-- What the socket does with an exchange. -/
inductive Exchange where
  | fails (fault : TransportFault)
  | reply (resp : List UInt8)

/-- `matches!(response, Response::Error(_))` -/
def Response.isError : Response → Bool
  | .error _ => true
  | _ => false

/-- `max_frame_length` of the codec. -/
def maxFrameLength : Nat := 16 * 1024 * 1024

/-- The header `infer` sends in front of the image. -/
def frameHeader (frame_id prompt prompt_task : Str) (mode : GenerationMode) (jpeg_len : Nat) :
    Json Str :=
  .obj (Json.toMap
    [("kind".toList, .str "frame".toList), ("frame_id".toList, .str frame_id),
     ("prompt".toList, .str prompt), ("prompt_task".toList, .str prompt_task),
     ("generation_mode".toList, .str mode.wireName),
     ("jpeg_len".toList, .num (.posInt jpeg_len))])

section Infer
variable (fromSlice : List UInt8 → Option (Json Str))

/-- `infer`, from the reply on. -/
def decodeReply (resp : List UInt8) : Except ServerError Response :=
  match fromSlice resp with
  | none => .error (.workerProtocol .json)
  | some doc =>
    match doc.value with
    | .obj m =>
      match Json.get "ok".toList m with
      | some (.bool ok) =>
        match Response.ofMembers (Json.erase "ok".toList m) with
        | none => .error (.workerProtocol .schema)
        | some response =>
          if ok = response.isError then
            .error (.workerProtocol (.contradiction ok response.isError))
          else .ok response
      | some other => .error (.workerProtocol (.okNotBool other))
      | none => .error (.workerProtocol (.okMissing (some (m.map Prod.fst))))
    | _ => .error (.workerProtocol (.okMissing none))

/-- `WorkerConn::infer` -/
def infer : Exchange → Except ServerError Response
  | .fails fault => .error (.workerUnavailable fault)
  | .reply resp => decodeReply fromSlice resp

/-- **The shape of a reply**: an object whose members are a boolean `ok`, the tag of a variant
    and exactly the fields of that variant, where `ok` is false for errors and only for them. -/
def Envelope (d : Json Str) : Prop :=
  ∃ members ok t, d = .obj members ∧
    Json.Members (("ok".toList, (· = .bool ok)) :: ("type".toList, (· = .str t.wireName)) ::
      (ResponseType.fields t).types) members ∧
    (ok = false ↔ t = .error)

theorem Response.isError_iff {r : Response} : r.isError = true ↔ r.type = .error := by
  cases r <;> simp [Response.isError, Response.type]

theorem ne_iff_false_iff_true {a b : Bool} : a ≠ b ↔ (a = false ↔ b = true) := by
  cases a <;> cases b <;> simp

theorem decodeReply_eq_ok_iff {resp : List UInt8} {r : Response} :
    decodeReply fromSlice resp = .ok r ↔
      ∃ doc m ok, fromSlice resp = some doc ∧ doc.value = .obj m ∧
        Json.get "ok".toList m = some (.bool ok) ∧
        Response.ofMembers (Json.erase "ok".toList m) = some r ∧ ok ≠ r.isError := by
  constructor
  · intro h
    unfold decodeReply at h
    split at h
    case h_1 => exact absurd h (by simp)
    rename_i doc hdoc
    split at h
    case h_2 => exact absurd h (by simp)
    rename_i m hm
    split at h
    case h_2 => exact absurd h (by simp)
    case h_3 => exact absurd h (by simp)
    rename_i ok hok
    split at h
    case h_1 => exact absurd h (by simp)
    rename_i response hr
    obtain ⟨hne, rfl⟩ := ite_error_ok_eq_ok.mp h
    exact ⟨doc, m, ok, hdoc, hm, hok, hr, hne⟩
  · rintro ⟨doc, m, ok, hdoc, hm, hok, hr, hne⟩
    simp only [decodeReply, hdoc, hm, hok, hr, if_neg hne]

/-- `infer` accepts exactly the replies whose untyped parse has the right shape. -/
theorem infer_ok_iff {resp : List UInt8} :
    (∃ r, infer fromSlice (.reply resp) = .ok r) ↔
      ∃ doc, fromSlice resp = some doc ∧ Envelope doc.value := by
  simp only [infer, decodeReply_eq_ok_iff]
  constructor
  · rintro ⟨r, doc, m, ok, hdoc, hm, hok, hr, hne⟩
    obtain ⟨members, -, hmap⟩ := Json.value_eq_obj.mp hm
    have hnd : (m.map Prod.fst).Nodup := hmap ▸ Json.toMap_nodup _
    refine ⟨doc, hdoc, m, ok, r.type, hm, ?_, ?_⟩
    · rw [Json.members_cons_iff hnd]
      exact ⟨_, hok, rfl, (Response.ofMembers_iff (Json.erase_nodup hnd)).mp ⟨r, hr, rfl⟩⟩
    · rw [← Response.isError_iff]
      exact ne_iff_false_iff_true.mp hne
  · rintro ⟨doc, hdoc, m, ok, t, hm, hfields, hagree⟩
    obtain ⟨members, -, hmap⟩ := Json.value_eq_obj.mp hm
    have hnd : (m.map Prod.fst).Nodup := hmap ▸ Json.toMap_nodup _
    obtain ⟨_, hok, rfl, hrest⟩ := (Json.members_cons_iff hnd).mp hfields
    obtain ⟨r, hr, rfl⟩ := (Response.ofMembers_iff (Json.erase_nodup hnd)).mpr hrest
    refine ⟨r, doc, m, ok, hdoc, hm, hok, hr, ?_⟩
    rw [← Response.isError_iff] at hagree
    exact ne_iff_false_iff_true.mpr hagree

/-- A document that repeats no key has the shape of a reply if its untyped parse has. -/
theorem Envelope.of_value {d : Json Str} (hd : NoRepeat d) (h : Envelope d.value) :
    Envelope d := by
  obtain ⟨m, ok, t, hm, hfields, hagree⟩ := h
  obtain ⟨members, rfl, rfl⟩ := Json.value_eq_obj.mp hm
  refine ⟨members, ok, t, rfl, hfields.of_value ?_ hd, hagree⟩
  intro f hf e he hv
  rcases List.mem_cons.mp hf with rfl | hf
  · exact Json.value_eq_bool.mp hv
  rcases List.mem_cons.mp hf with rfl | hf
  · exact Json.value_eq_str.mp hv
  · exact (ResponseType.fields t).of_value f hf e he hv

/-- **Which bytes only get through as a proper reply**: the ones that are no JSON, repeat no key,
    or would not get through at all. -/
theorem egress_strict_iff (resp : List UInt8) :
    (∀ r, infer fromSlice (.reply resp) = .ok r →
      ∃ doc, fromSlice resp = some doc ∧ NoRepeat doc ∧ Envelope doc) ↔
    ∀ doc, fromSlice resp = some doc → NoRepeat doc ∨ ¬ Envelope doc.value := by
  constructor
  · intro h doc hdoc
    by_cases he : Envelope doc.value
    · obtain ⟨r, hr⟩ := (infer_ok_iff fromSlice).mpr ⟨doc, hdoc, he⟩
      obtain ⟨doc', hdoc', hno, -⟩ := h r hr
      rw [hdoc] at hdoc'
      cases hdoc'
      exact .inl hno
    · exact .inr he
  · intro h r hr
    obtain ⟨doc, hdoc, he⟩ := (infer_ok_iff fromSlice).mp ⟨r, hr⟩
    rcases h doc hdoc with hno | hne
    · exact ⟨doc, hdoc, hno, he.of_value hno⟩
    · exact absurd he hne

end Infer

/-! ## A repeated key -/

/-- An error reply that names two frames. -/
def twoFrameIds : Json Str :=
  .obj
    [("ok".toList, .bool false), ("type".toList, .str "error".toList),
     ("frame_id".toList, .str "f-1".toList), ("frame_id".toList, .str "f-2".toList),
     ("code".toList, .str "internal".toList), ("message".toList, .str "m".toList)]

def twoFrameIdsText : Str :=
  ("\x7b\"ok\":false,\"type\":\"error\",\"frame_id\":\"f-1\",\"frame_id\":\"f-2\"," ++
   "\"code\":\"internal\",\"message\":\"m\"\x7d").toList

def twoFrameIdsBytes : List UInt8 := twoFrameIdsText.map fun c => UInt8.ofNat c.toNat

/-- The JSON reader, as far as these bytes go. -/
def readTwoFrameIds (bytes : List UInt8) : Option (Json Str) :=
  if bytes = twoFrameIdsBytes then some twoFrameIds else none

/-- The second frame id replaces the first in the untyped parse, and the reply is forwarded. -/
theorem repeated_key_forwarded :
    infer readTwoFrameIds (.reply twoFrameIdsBytes) =
      .ok (.error ⟨"f-2".toList, .internal, "m".toList⟩) ∧
    ¬ ∃ doc, readTwoFrameIds twoFrameIdsBytes = some doc ∧ NoRepeat doc ∧ Envelope doc := by
  have hread : readTwoFrameIds twoFrameIdsBytes = some twoFrameIds := if_pos rfl
  refine ⟨?_, ?_⟩
  · rw [infer, decodeReply_eq_ok_iff]
    exact ⟨twoFrameIds, _, false, hread, rfl, rfl, rfl, by decide⟩
  · rintro ⟨doc, hdoc, hno, -⟩
    rw [hread] at hdoc
    cases hdoc
    exact absurd hno.keys (by decide)

end LocateAnything.Edge
