import LocateAnything.Edge.Ipc
import LocateAnything.Edge.Ws
import LocateAnything.Worker.Connection

/-!
# One request, one reply

The two ends of an exchange fit together: what the edge forwards the worker takes to the
engine, prompt and payload unchanged (`route_forwarded`), and a reply that names a frame is
read back, if at all, as a `Response` to that frame (`frameId_of_decodeReply`).

Both are about one exchange on its own. That the frames of different exchanges do not get
mixed up on the socket between the programs is another matter, and needs runs; there these two
lemmas are what remains to be said once the bytes are known to be the right ones.

The worker checks again what the edge has checked, so the first lemma has to show that none of
those checks fails: the prompt of an accepted request is not empty and not too long, the mode
is one of three, and the payload has been seen to start like a JPEG.
-/

set_option autoImplicit false

namespace LocateAnything.Bridge

open Edge (Config PendingFrame Forwardable)
open Framing (Bytes)
open Worker (Job Python)

/-- The header the edge sends for a Frame. -/
def headerOf (p : PendingFrame) : Json Str :=
  Edge.frameHeader p.header.frame_id p.prompt p.prompt_task p.header.generation_mode
    p.header.jpeg_len

/-- The job a Frame is for the worker. The two differ in vocabulary only, which is the reason
    to have this as a function: statements on the worker's side can then speak of Frames. -/
def jobOf (p : PendingFrame) : Job where
  frame_id := p.header.frame_id
  prompt := p.prompt
  mode := p.header.generation_mode.wireName
  prompt_task := .str p.prompt_task
  jpeg := p.jpeg

/-- The worker refuses an empty prompt, and no template renders to one. -/
theorem render_ne_nil (r : Edge.PromptRequest) : Edge.render Edge.templates r ≠ [] := by
  cases r <;> simp [Edge.render, Edge.templates]

theorem wireName_mem_modes (m : Edge.GenerationMode) : m.wireName ∈ Worker.modes := by
  cases m <;> decide

/-- The header's members, by name. `serde_json` writes a map in the order of its keys, which
    the worker does not care about. -/
theorem headerOf_eq (p : PendingFrame) : ∃ d : Worker.Dict, headerOf p = .obj d ∧
    Json.get "kind".toList d = some (.str "frame".toList) ∧
    Json.get "frame_id".toList d = some (.str p.header.frame_id) ∧
    Json.get "prompt".toList d = some (.str p.prompt) ∧
    Json.get "prompt_task".toList d = some (.str p.prompt_task) ∧
    Json.get "generation_mode".toList d = some (.str p.header.generation_mode.wireName) := by
  refine ⟨_, rfl, ?_⟩
  refine ⟨?_, ?_, ?_, ?_, ?_⟩ <;>
  · rw [Json.get_toMap (of_decide_eq_true rfl)]
    simp

/-- **The worker takes to the engine what the edge forwards.** -/
theorem route_forwarded {cfg : Config} {py : Python} {bytes header : Bytes} {p : PendingFrame}
    (hp : Forwardable cfg bytes p) (hload : py.loads header = .ok (headerOf p)) :
    Worker.route py header p.jpeg = .infer (jobOf p) := by
  obtain ⟨d, hd, hkind, hid, hprompt, htask, hmode⟩ := headerOf_eq p
  obtain ⟨haccepted, hrender, -⟩ := (Edge.compile_eq_ok_iff _ _).mp hp.compiled
  have hprompt_ne : p.prompt ≠ [] := hrender ▸ render_ne_nil _
  have hprompt_le : ¬ p.prompt.length > 16384 := by
    have := haccepted.length_le
    rw [← hrender] at this
    simpa [Edge.maxPromptChars] using this
  have hjpeg : p.jpeg.take 3 = [0xFF, 0xD8, 0xFF] := by simpa [Edge.isJpeg] using hp.is_jpeg
  have hadmission : Worker.admission d p.jpeg = .ok (jobOf p) := by
    simp only [Worker.admission, Worker.Dict.get, hid, hprompt, htask, hmode, Option.getD_some,
      if_neg hp.frame_id_ne, List.find?_cons, List.find?_nil, Option.isNone_some, if_neg hprompt_ne,
      if_neg hprompt_le, wireName_mem_modes, not_true_eq_false, if_false, if_neg hp.jpeg_ne, hjpeg,
      ne_eq, jobOf]
  have hcap : "frame".toList ≠ "capabilities".toList := by decide
  have hinfo : "frame".toList ≠ "info".toList := by decide
  simp only [Worker.route, hload, hd, Worker.Dict.get, hkind, Option.getD_some, if_neg hcap,
    if_neg hinfo, if_true, hadmission]

/-- **A reply that names a frame is a `Response` to it**, or none. -/
theorem frameId_of_decodeReply {fromSlice : Bytes → Option (Json Str)} {bytes : Bytes}
    {doc : Json Str} {frame_id : Str} {r : Edge.Response}
    (hread : fromSlice bytes = none ∨ fromSlice bytes = some doc)
    (hdoc : Worker.NamesFrame frame_id doc)
    (h : Edge.decodeReply fromSlice bytes = .ok r) : r.frameId = frame_id := by
  obtain ⟨doc', m, ok, hdoc', hm, -, hr, -⟩ := (Edge.decodeReply_eq_ok_iff _).mp h
  have heq : doc' = doc := by
    rcases hread with hn | hs
    · rw [hn] at hdoc'; exact absurd hdoc' (by simp)
    · rw [hs] at hdoc'; exact (Option.some.inj hdoc').symm
  subst heq
  obtain ⟨members, rfl, hnd, hmem⟩ := hdoc
  obtain ⟨_, hobj, rfl⟩ := Json.value_eq_obj.mp hm
  cases hobj
  have hget : Json.get "frame_id".toList (Json.toMap (Json.entries members)) =
      some (.str frame_id) := by
    rw [Json.get_toMap (by rw [Json.entries_keys]; exact hnd), Json.entries_eq]
    exact List.mem_map.mpr ⟨_, hmem, rfl⟩
  have hnd' := Json.toMap_nodup (Json.entries members)
  have hid : Json.get "frame_id".toList
      (Json.erase "ok".toList (Json.toMap (Json.entries members))) = some (.str r.frameId) :=
    Edge.Response.get_frame_id (Json.erase_nodup hnd') hr
  rw [Json.get_erase (by decide), hget] at hid
  exact (Json.str.inj (Option.some.inj hid)).symm

end LocateAnything.Bridge
