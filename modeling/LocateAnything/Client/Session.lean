import LocateAnything.Client.Message
import LocateAnything.Client.Receiver
import LocateAnything.Stream.Progress

/-!
# From the camera to the log

The reference client, the edge and the worker, put together: a run of the client whose
messages are what arrives on one of the server's connections, among any others.
`session_reports` says what the client may conclude from the replies: the `n`-th of them
reports what the engine has come to for the `n`-th frame sent, which is the encoding of the
frame whose number is in the id.

Each program has its own theorem, and each stops at the wire: the client's is about messages
that it packs, the server's about messages it is sent. What joins them is that the server
reads the client's header as what the client wrote (`locateHeader_message`), which is a round
trip through two JSON libraries. Nothing is assumed of either but that the reader reads what
the writer has written (`ReadsHeader`). The messages need not all have arrived; those that
have are the first.

The conclusion matters because the client does nothing to secure it. It numbers its frames,
but sends and receives in two tasks that share nothing, and logs a reply under the id it finds
there.
-/

set_option autoImplicit false

namespace LocateAnything.Client

open Edge (Floats InferHeader PromptRequest Response processBinary)
open Framing (Bytes)
open LocateAnything.Stream (Conn Step System World WsEvent)
open Transition (Run)

/-! ## One message -/

section Message
variable {cfg : Edge.Config} {dumps : Json Str → Bytes} {args : Args} {r : PromptRequest}
  {item : Nat × Bytes} {m : Bytes}

/-- The server finds the client's header in front of the client's JPEG, if it finds any. -/
theorem locateHeader_message (hempty : ∀ header, cfg.readHeader [] ≠ .ok header)
    (hread : ReadsHeader cfg dumps args (Edge.promptRequest.members r) item)
    (hlen : item.2.length < 2 ^ 64)
    (hm : message dumps args (Edge.promptRequest.members r) item = some m) {header : InferHeader}
    {jpeg : Bytes} (hl : Edge.locateHeader cfg m = .ok (header, jpeg)) :
    header = headerOf args r item ∧ jpeg = item.2 := by
  have hheader := hread _ (parse_headerDict hlen)
  simp only [message, Option.ite_none_right_eq_some, Option.some.injEq] at hm
  generalize dumps (.obj (headerDict args (Edge.promptRequest.members r) item)) = e at hheader hm
  have hne : e ≠ [] := by
    rintro rfl
    exact hempty _ hheader
  obtain ⟨hfits, rfl⟩ := hm
  rw [← Framing.encode, Edge.locateHeader_encode hheader hne hfits] at hl
  split at hl
  · exact absurd hl (by simp)
  · split at hl
    · exact absurd hl (by simp)
    · obtain ⟨rfl, rfl⟩ := Prod.mk.inj (Except.ok.inj hl)
      exact ⟨rfl, rfl⟩

end Message

/-- **`r` reports on the frame of `item`**: why the server has rejected it, or what a call of the
    engine with its JPEG and the prompt of the flags has come to. The call is one of those made for
    the connection (`calls`), so that the reply is what the engine did say, and not only something it
    might have said. -/
inductive Reported (W : World) (calls : Stream.Calls) (args : Args) (request : PromptRequest)
    (item : Nat × Bytes) (r : Response) : Prop where
  | rejected {fault : Edge.FrameFault}
    (hcheck : Edge.firstFailing W.cfg (headerOf args request item) item.2 = some fault.code)
    (hr : r = .error ⟨frameId args.client_id item.1, fault.code, fault.message⟩)
  | answered {prompt task : Str} {o : Worker.EngineOutcome} {doc : Json Str}
    (haccepts : Edge.Accepts W.cfg (headerOf args request item) item.2)
    (hcompile : Edge.compile Edge.templates W.cfg.nfc request = .ok (prompt, task))
    (hcall : (⟨item.2, prompt, args.mode.wireName, .str task⟩, o) ∈ calls)
    (hengine : W.engine ⟨item.2, prompt, args.mode.wireName, .str task⟩ o)
    (hdoc : (Worker.send W.py (frameId args.client_id item.1)
      (Worker.inferReply
        (Bridge.jobOf ⟨headerOf args request item, item.2, prompt, task⟩) o)).doc = some doc)
    (hr : Edge.infer W.fromSlice (.reply (W.py.dumps doc)) = .ok r)

/-- An answer to a message of the client is one to its frame. -/
theorem reported_of_answers {W : World} {calls : Stream.Calls} {dumps : Json Str → Bytes}
    {args : Args} {request : PromptRequest} {item : Nat × Bytes} {m : Bytes} {r : Response}
    (hempty : ∀ header, W.cfg.readHeader [] ≠ .ok header)
    (hread : ReadsHeader W.cfg dumps args (Edge.promptRequest.members request) item)
    (hlen : item.2.length < 2 ^ 64)
    (hm : message dumps args (Edge.promptRequest.members request) item = some m)
    (hcalls : ∀ e ∈ calls, W.engine e.1 e.2) (ha : Stream.Answers W calls m r) :
    r.frameId = frameId args.client_id item.1 ∧ Reported W calls args request item r := by
  have hid := ha.frame_id
  unfold Edge.frameIdOf at hid
  cases hl : Edge.locateHeader W.cfg m with
  | error e => simp [hl] at hid
  | ok located =>
    obtain ⟨header, jpeg⟩ := located
    obtain ⟨rfl, rfl⟩ := locateHeader_message hempty hread hlen hm hl
    simp only [hl, Option.some.injEq] at hid
    refine ⟨hid.symm, ?_⟩
    by_cases haccepts : Edge.Accepts W.cfg (headerOf args request item) item.2
    · obtain ⟨prompt, task, hcompile, hout⟩ := Edge.processBinary_of_accepts hl haccepts
      rcases ha.origin with ⟨_, _, hp, -⟩ | ⟨p, doc, hp, ⟨o, ho, hdoc⟩, hr⟩
      · exact absurd (hout.symm.trans hp) (by simp)
      · obtain rfl := Edge.BinaryOutcome.pending.inj (hout.symm.trans hp)
        exact .answered haccepts hcompile ho (hcalls _ ho) hdoc hr
    · obtain ⟨fault, hout, hcode⟩ := Edge.processBinary_of_not_accepts hl haccepts
      rcases ha.origin with ⟨_, _, hp, hr⟩ | ⟨p, _, hp, -⟩
      · obtain ⟨rfl, rfl⟩ := Edge.BinaryOutcome.perFrame.inj (hout.symm.trans hp)
        exact .rejected hcode hr
      · exact absurd (hout.symm.trans hp) (by simp)

/-! ## The session -/

theorem forall₂_trans {α β γ : Type} {R : α → β → Prop} {T : β → γ → Prop} {as : List α}
    {bs : List β} {cs : List γ} (h : List.Forall₂ R as bs) (h' : List.Forall₂ T bs cs) :
    List.Forall₂ (fun a c => ∃ b, R a b ∧ T b c) as cs := by
  induction h generalizing cs with
  | nil =>
    cases h' with
    | nil => exact .nil
  | cons hab _ ih =>
    cases h' with
    | cons hbc h' => exact .cons ⟨_, hab, hbc⟩ (ih h')

theorem map_eq_of_forall₂ {α β γ : Type} {f : α → γ} {g : β → γ} {as : List α} {bs : List β}
    (h : List.Forall₂ (fun a b => f a = g b) as bs) : as.map f = bs.map g := by
  rwa [← List.forall₂_eq_eq_eq, List.forall₂_map_left_iff, List.forall₂_map_right_iff]

/-- What is sent under a number is the encoding of the frame captured under it. -/
theorem Pipeline.Inv.camera {φ : Type} {S : Source φ} {p : Pipeline φ} (hi : Pipeline.Inv S p)
    {item : Nat × Bytes} (h : item ∈ p.sent) :
    ∃ frame, p.captured[item.1]? = some frame ∧ S.encode_jpeg frame = some item.2 := by
  rw [hi.sent_eq] at h
  obtain ⟨⟨idx, frame⟩, hmem, hencoded⟩ := List.mem_filterMap.mp h
  obtain ⟨jpeg, hjpeg, rfl⟩ := Option.map_eq_some_iff.mp hencoded
  refine ⟨frame, ?_, hjpeg⟩
  obtain ⟨⟨frame', idx'⟩, hzip, hswap⟩ := List.mem_map.mp (List.mem_of_mem_take hmem)
  obtain ⟨rfl, rfl⟩ := Prod.mk.inj hswap
  exact List.mem_zipIdx_iff_getElem?.mp hzip

/-- **The `n`-th reply reports on the `n`-th frame sent**, whatever the camera, the other clients,
    the engine and the order of the steps: it carries the id of that frame alone, the frame with
    the number in the id has been encoded, and what the engine has been called with is that JPEG
    and the prompt of the flags. No reply has the receiver fail, and none is missing where the
    handler is back at the top of its loop with nothing to take up. -/
theorem session_reports {φ ι : Type} [DecidableEq ι] {S : Source φ} {p : Pipeline φ}
    {as : List (Action φ)} {W : World} {sys : System ι} {bs : List (Option ι)} {args : Args}
    {dumps : Json Str → Bytes} {request : List (Str × Json Str)} {ms : List Bytes} (i : ι)
    (hclient : Run (Pipeline.Step S) Pipeline.start as p)
    (hserver : Run (Step W) System.start bs sys)
    (hbuild : buildRequest args = .ok request)
    (hpacked : List.Forall₂ (fun item m => message dumps args request item = some m) p.sent ms)
    (harrived : (sys.conns i).sent.filterMap Stream.Message.binary? <+: ms)
    (hempty : ∀ header, W.cfg.readHeader [] ≠ .ok header)
    (hread : ∀ item ∈ p.sent, ReadsHeader W.cfg dumps args request item)
    (hlen : ∀ item ∈ p.sent, item.2.length < 2 ^ 64) :
    let replies := (sys.conns i).log.filterMap WsEvent.text?
    (∃ r, requestOf args = some r ∧
      List.Forall₂ (fun item reply =>
        reply.frameId = frameId args.client_id item.1 ∧
        (∃ frame, p.captured[item.1]? = some frame ∧ S.encode_jpeg frame = some item.2) ∧
        Reported W (sys.conns i).calls args r item reply) (p.sent.take replies.length) replies) ∧
    (replies.map Response.frameId).Nodup ∧
    (∀ fl, ∀ reply ∈ replies, receive (.obj (reply.members fl)) = .ok (linesOf fl reply)) ∧
    ((sys.conns i).edge = .top → (sys.conns i).inbox.filterMap Stream.Message.binary? = [] →
      replies.length = ((sys.conns i).sent.filterMap Stream.Message.binary?).length) := by
  intro replies
  obtain ⟨r, hr, rfl⟩ := buildRequest_eq_ok_iff.mp hbuild
  obtain ⟨hinv, hcalls⟩ := (Stream.System.inv_of_run hserver).conns i
  have hi := Pipeline.inv_of_run hclient
  obtain ⟨pending, hdialogue, hphase⟩ := hinv.phase
  obtain ⟨answered, hframes, hanswers⟩ := hdialogue.forall₂
  have hcount : answered.length = replies.length := hanswers.length_eq
  -- the messages answered are the first ones sent
  have hprefix : answered <+: ms := by
    refine List.IsPrefix.trans ?_ harrived
    rw [hinv.in_order, hframes, List.append_assoc]
    exact List.prefix_append _ _
  have hitems : List.Forall₂ (fun item m => item ∈ p.sent ∧
      message dumps args (Edge.promptRequest.members r) item = some m)
      (p.sent.take replies.length) answered := by
    rw [List.prefix_iff_eq_take.mp hprefix, hcount]
    exact List.forall₂_take _ ((List.forall₂_and_left _ _).mpr ⟨fun _ h => h, hpacked⟩)
  have hreports := forall₂_trans hitems hanswers
  have hall : List.Forall₂ (fun item reply =>
      reply.frameId = frameId args.client_id item.1 ∧
      (∃ frame, p.captured[item.1]? = some frame ∧ S.encode_jpeg frame = some item.2) ∧
      Reported W (sys.conns i).calls args r item reply) (p.sent.take replies.length) replies := by
    refine hreports.imp ?_
    rintro item reply ⟨m, ⟨hitem, hm⟩, ha⟩
    obtain ⟨hid, hreported⟩ :=
      reported_of_answers hempty (hread item hitem) (hlen item hitem) hm hcalls ha
    exact ⟨hid, hi.camera hitem, hreported⟩
  refine ⟨⟨r, hr, hall⟩, ?_, fun fl reply _ => receive_members fl reply, fun htop hinbox => ?_⟩
  · rw [← map_eq_of_forall₂ (hall.imp fun _ _ h => h.1.symm)]
    refine List.Nodup.sublist ?_ (ids_nodup hclient args.client_id)
    exact (List.take_sublist _ _).map _
  · simp only [Stream.Phase, htop] at hphase
    obtain rfl := hphase.1
    rw [hinv.in_order, hinbox, hframes, ← hcount]
    simp

/-! ## One frame -/

/-- The header of the frame on its way to the worker. -/
def sampleForwarded : Bytes :=
  Edge.utf8 ("\x7b\"frame_id\":\"c-00000000\",\"generation_mode\":\"fast\",".toList ++
    "\"jpeg_len\":15,\"kind\":\"frame\",".toList ++
    "\"prompt\":\"Detect all the text in box format.\",".toList ++
    "\"prompt_task\":\"scene_text\"\x7d".toList)

theorem session_reports_first : ∃ (W : World) (sys : System Unit) (r : Response),
    r.frameId = "c-00000000".toList ∧
    Reported W (sys.conns ()).calls sampleArgs .sceneText (0, Edge.sampleJpeg) r := by
  have hreads : ∀ e h, sampleServer.readHeader e = .ok h →
      h = headerOf sampleArgs .sceneText (0, Edge.sampleJpeg) := by
    intro e h he
    simp only [sampleServer] at he
    split at he
    · exact (Except.ok.inj he).symm
    · exact absurd he (by simp)
  have hsees : ∀ jpeg w h, sampleServer.readDimensions jpeg = .ok w h → jpeg = Edge.sampleJpeg :=
    fun _ _ _ => Stream.sampleConfig_sees []
  have hcompile : Edge.compile Edge.templates sampleServer.nfc
      (headerOf sampleArgs .sceneText (0, Edge.sampleJpeg)).request =
      .ok (Edge.templates.scene_text_exact, "scene_text".toList) := rfl
  have honly : ∀ b p, processBinary sampleServer b = .pending p →
      p = ⟨headerOf sampleArgs .sceneText (0, Edge.sampleJpeg), Edge.sampleJpeg,
        Edge.templates.scene_text_exact, "scene_text".toList⟩ :=
    fun _ _ => Stream.pending_unique hreads hsees hcompile
  obtain ⟨W, hcfg, hcalm, -⟩ := Stream.exists_calm_world honly (by decide) "no image".toList
    sampleForwarded (Stream.sampleReplyText "c-00000000".toList)
    (by decide +kernel) (by decide +kernel) (by decide +kernel) (by decide +kernel)
  let m := Framing.encode sampleText ++ Edge.sampleJpeg
  have hclient : Run (Pipeline.Step sampleCamera) Pipeline.start
      [.openSource true, .read (some ()), .put, .get, .encode, .send]
      { Pipeline.start with
        capture := .reading
        frame_idx := 1
        enqueued := [()]
        taken := [(0, ())]
        sent := [(0, Edge.sampleJpeg)] } := Transition.run_of_exec rfl
  have hheader : W.cfg.readHeader sampleText =
      .ok (headerOf sampleArgs .sceneText (0, Edge.sampleJpeg)) := by
    simp [hcfg, sampleServer]
  have hread : ∀ item ∈ [(0, Edge.sampleJpeg)], ReadsHeader W.cfg (fun _ => sampleText)
      sampleArgs (Edge.promptRequest.members .sceneText) item := by
    intro item hitem header hparse
    obtain rfl := List.mem_singleton.mp hitem
    rw [parse_headerDict (by decide)] at hparse
    obtain rfl := Option.some.inj hparse
    exact hheader
  have hempty : ∀ header, W.cfg.readHeader [] ≠ .ok header := by
    intro header
    have hne : [] ≠ sampleText := by decide +kernel
    simp [hcfg, sampleServer, hne]
  have hfits : sampleText.length < 2 ^ 32 := by decide +kernel
  have hm : message (fun _ => sampleText) sampleArgs (Edge.promptRequest.members .sceneText)
      (0, Edge.sampleJpeg) = some m := by
    rw [message, if_pos hfits]
    rfl
  have hid : Edge.FrameIdOk (headerOf sampleArgs .sceneText (0, Edge.sampleJpeg)).frame_id := by
    decide
  have hl := Edge.locateHeader_of_frameIdOk Edge.sampleJpeg hheader (by decide +kernel) hfits hid
  -- the message does not cost the connection, so that it can be answered
  have hfatal : Stream.NoneFatal W [.binary m] := by
    intro b hb fault hout
    obtain rfl : b = m := List.mem_singleton.mp hb
    have hlocated := Edge.processBinary_located hl
    rw [hout] at hlocated
    split at hlocated <;> simp at hlocated
  have hfirst := Stream.run_sentFirst (W := W) m
  have hgoing : Stream.Going W ⟨fun _ => Conn.sentFirst m, none⟩ ()
      ⟨fun _ => Conn.sentFirst m, none⟩ :=
    ⟨Stream.System.inv_of_run hfirst, Stream.alive_sentFirst m, fun _ h => h, rfl⟩
  obtain ⟨bs, sys, hrest, hgoing', hsettled⟩ := hgoing.settles hcalm hfatal
  have hserver := hfirst.append hrest
  have harrived : (sys.conns ()).sent.filterMap Stream.Message.binary? = [m] :=
    congrArg _ hgoing'.sent_eq
  obtain ⟨⟨r, hr, hall⟩, -, -, hcount⟩ := session_reports () hclient hserver rfl (.cons hm .nil)
    (harrived ▸ List.prefix_refl _) hempty hread (by simp; decide)
  obtain rfl := Option.some.inj hr
  have hone := hcount hsettled.edge (by rw [hsettled.inbox]; rfl)
  rw [harrived] at hone
  generalize (sys.conns ()).log.filterMap WsEvent.text? = replies at hall hone
  obtain ⟨reply, rfl⟩ := List.length_eq_one_iff.mp hone
  cases hall with
  | cons h _ => exact ⟨W, sys, reply, h.1, h.2.2⟩

end LocateAnything.Client
