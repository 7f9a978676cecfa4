import LocateAnything.Client.Delivery
import LocateAnything.Edge.Acceptance
import LocateAnything.Edge.Wire
import LocateAnything.Lib.Words

/-!
# `reference_client.py`: what is sent

`build_request` makes the typed request from the flags, once; `sender` puts it into the header of
every Frame, under an id of its own. `dumps` is `json.dumps`, encoded; that the server reads back
what it writes is a hypothesis on the two JSON libraries (`ReadsHeader`), and all that is asked of
them.

What the client can get wrong with a message is of two kinds. A frame the server's checks reject
costs that frame and no more. But an id that is too long makes the framing fatal, and a message that
is too large never comes to `process_binary`: either takes the connection down. `sent_answered_iff`
draws the line.
-/

set_option autoImplicit false

namespace LocateAnything.Client

open Edge (GenerationMode InferHeader PromptRequest processBinary receiveBinary)
open Framing (Bytes)
open Transition (Run)
open Words (splitWord)

/-- The flags a request is made from. Each is there or not, whatever the task: it is
    `build_request` that asks for the one it needs. -/
structure Args where
  task : TemplateKind
  categories : Option Str
  phrase : Option Str
  text : Option Str
  description : Option Str
  mode : GenerationMode
  client_id : Str

/-- `raise SystemExit(f"--task {task} requires {flag}")` -/
def required (task : TemplateKind) (flag : Str) : Str :=
  "--task ".toList ++ task.wireName ++ " requires ".toList ++ flag

/-- The request of a task with one slot. -/
def slotRequest (task : TemplateKind) (field flag : Str) :
    Option Str → Except Str (List (Str × Json Str))
  | none => .error (required task flag)
  | some slot => .ok [("task".toList, .str task.wireName), (field, .str slot)]

/-- `[c.strip() for c in args.categories.split(",") if c.strip()]` -/
def categoryList (flag : Str) : List Str :=
  ((splitWord [','] flag).map Py.strip).filter (· ≠ [])

/-- `build_request` -/
def buildRequest (args : Args) : Except Str (List (Str × Json Str)) :=
  match args.task with
  | .detection =>
    match args.categories with
    | none | some [] => .error (required .detection "--categories a,b,c".toList)
    | some flag =>
      let cats := categoryList flag
      if cats = [] then .error "--categories produced zero non-empty entries".toList
      else .ok [("task".toList, .str TemplateKind.detection.wireName),
        ("categories".toList, .arr (cats.map .str))]
  | .phraseSingle => slotRequest .phraseSingle "phrase".toList "--phrase".toList args.phrase
  | .phraseMulti => slotRequest .phraseMulti "phrase".toList "--phrase".toList args.phrase
  | .point => slotRequest .point "phrase".toList "--phrase".toList args.phrase
  | .textGrounding => slotRequest .textGrounding "text".toList "--text".toList args.text
  | .guiBox => slotRequest .guiBox "description".toList "--description".toList args.description
  | .sceneText => .ok [("task".toList, .str TemplateKind.sceneText.wireName)]

/-- `f"{idx:08d}"` -/
def zeroPadded (idx : Nat) : Str :=
  List.replicate (8 - (Py.str idx).length) '0' ++ Py.str idx

/-- `f"{client_id}-{idx:08d}"`. The padding makes the ids sort like the frames, up to eight
    digits. -/
def frameId (client_id : Str) (idx : Nat) : Str := client_id ++ '-' :: zeroPadded idx

/-- The header of a Frame. -/
def headerDict (args : Args) (request : List (Str × Json Str)) (item : Nat × Bytes) :
    List (Str × Json Str) :=
  [("frame_id".toList, .str (frameId args.client_id item.1)),
   ("request".toList, .obj request),
   ("generation_mode".toList, .str args.mode.wireName),
   ("jpeg_len".toList, .num (.posInt item.2.length))]

/-- `struct.pack(">I", len(header)) + header + jpeg`; `struct.error` if the length does not
    fit. The image has no length of its own in front: it is what is left of the WebSocket
    message. -/
def message (dumps : Json Str → Bytes) (args : Args) (request : List (Str × Json Str))
    (item : Nat × Bytes) : Option Bytes :=
  let header := dumps (.obj (headerDict args request item))
  if header.length < 2 ^ 32 then some (Framing.be32 header.length ++ header ++ item.2) else none

/-! ## Ids -/

theorem int_zeros (n : Nat) (s : Str) : Py.int (List.replicate n '0' ++ s) = Py.int s := by
  induction n with
  | zero => rfl
  | succ n ih =>
    rw [← ih]
    rfl

theorem zeroPadded_injective : Function.Injective zeroPadded := by
  intro i j h
  have := congrArg Py.int h
  simpa only [zeroPadded, int_zeros, Py.int_str] using this

theorem frameId_injective (client_id : Str) : Function.Injective (frameId client_id) := by
  intro i j h
  exact zeroPadded_injective (List.cons.inj (List.append_cancel_left h)).2

theorem utf8Size_of_isDigit {c : Char} (h : c.isDigit = true) : c.utf8Size = 1 := by
  simp only [Char.isDigit, Bool.and_eq_true, decide_eq_true_eq] at h
  have hle : c.val ≤ 0x7F := UInt32.le_trans h.2 (by decide)
  exact if_pos hle

theorem len_eq_length {s : Str} (h : ∀ c ∈ s, c.isDigit = true) : Rust.len s = s.length := by
  induction s with
  | nil => rfl
  | cons c s ih =>
    rw [List.forall_mem_cons] at h
    have hs := ih h.2
    simp only [Rust.len, List.map_cons, List.sum_cons, List.length_cons,
      utf8Size_of_isDigit h.1] at hs ⊢
    omega

theorem len_append (s t : Str) : Rust.len (s ++ t) = Rust.len s + Rust.len t := by
  simp [Rust.len]

theorem len_zeroPadded (idx : Nat) : Rust.len (zeroPadded idx) = max 8 (Py.str idx).length := by
  have hdigits : ∀ c ∈ zeroPadded idx, c.isDigit = true := by
    intro c hc
    rcases List.mem_append.mp hc with hc | hc
    · rw [List.eq_of_mem_replicate hc]
      rfl
    · exact Nat.isDigit_of_mem_toDigits (by decide) (by decide) hc
  rw [len_eq_length hdigits, zeroPadded, List.length_append, List.length_replicate]
  omega

/-- The id grows with the number of the frame, from its ninth digit on. -/
theorem len_frameId (client_id : Str) (idx : Nat) :
    Rust.len (frameId client_id idx) = Rust.len client_id + 1 + max 8 (Py.str idx).length := by
  have hcons : Rust.len ('-' :: zeroPadded idx) = 1 + Rust.len (zeroPadded idx) := rfl
  rw [frameId, len_append, hcons, len_zeroPadded, Nat.add_assoc]

theorem numbered_nodup {φ : Type} (frames : List φ) :
    ((Pipeline.numbered frames).map Prod.fst).Nodup := by
  have hfst : (Pipeline.numbered frames).map Prod.fst = List.range' 0 frames.length := by
    rw [Pipeline.numbered, List.map_map]
    exact List.zipIdx_map_snd 0 frames
  rw [hfst]
  exact List.nodup_range'

/-! ## Requests -/

/-- The request a client can make of its flags. -/
def requestOf (args : Args) : Option PromptRequest :=
  match args.task with
  | .detection =>
    match categoryList (args.categories.getD []) with
    | [] => none
    | cats => some (.detection cats)
  | .phraseSingle => args.phrase.map .phraseSingle
  | .phraseMulti => args.phrase.map .phraseMulti
  | .point => args.phrase.map .point
  | .textGrounding => args.text.map .textGrounding
  | .guiBox => args.description.map .guiBox
  | .sceneText => some .sceneText

theorem slotRequest_eq_ok_iff {task : TemplateKind} {field flag : Str} {slot : Option Str}
    {make : Str → PromptRequest} {request : List (Str × Json Str)}
    (hmake : ∀ s, Edge.promptRequest.members (make s) =
      [("task".toList, .str task.wireName), (field, .str s)]) :
    slotRequest task field flag slot = .ok request ↔
      ∃ r, slot.map make = some r ∧ request = Edge.promptRequest.members r := by
  cases slot with
  | none => simp [slotRequest]
  | some s => simp [slotRequest, hmake, eq_comm]

/-- **What `build_request` makes is what the server reads as a typed request.** -/
theorem buildRequest_eq_ok_iff {args : Args} {request : List (Str × Json Str)} :
    buildRequest args = .ok request ↔
      ∃ r, requestOf args = some r ∧ request = Edge.promptRequest.members r := by
  unfold buildRequest requestOf
  cases args.task with
  | detection =>
    have hnil : categoryList [] = [] := rfl
    dsimp only
    cases args.categories with
    | none => simp [hnil]
    | some flag =>
      cases flag with
      | nil => simp [hnil]
      | cons c flag =>
        dsimp only [Option.getD_some]
        cases categoryList (c :: flag) with
        | nil => simp
        | cons cat cats =>
          simp only [reduceCtorEq, if_false, Except.ok.injEq, Option.some.injEq, exists_eq_left']
          exact eq_comm
  | phraseSingle => exact slotRequest_eq_ok_iff fun _ => rfl
  | phraseMulti => exact slotRequest_eq_ok_iff fun _ => rfl
  | textGrounding => exact slotRequest_eq_ok_iff fun _ => rfl
  | guiBox => exact slotRequest_eq_ok_iff fun _ => rfl
  | point => exact slotRequest_eq_ok_iff fun _ => rfl
  | sceneText =>
    simp only [Except.ok.injEq, Option.some.injEq, exists_eq_left']
    exact eq_comm

/-! ## Categories -/

theorem isSpace_of_isWhitespace {c : Char} (h : Rust.isWhitespace c = true) :
    Py.isSpace c = true := by
  simp only [Py.isSpace, Rust.isWhitespace, Bool.or_eq_true, Bool.and_eq_true,
    decide_eq_true_eq] at h ⊢
  omega

/-- What Python has stripped, Rust finds trimmed. -/
theorem trim_strip (s : Str) : Rust.trim (Py.strip s) = Py.strip s :=
  Py.strip_strip_of_imp (fun _ => isSpace_of_isWhitespace) s

theorem of_mem_categoryList {flag cat : Str} (h : cat ∈ categoryList flag) :
    cat ≠ [] ∧ Rust.trim cat = cat ∧ ',' ∉ cat := by
  rw [categoryList, List.mem_filter, List.mem_map] at h
  obtain ⟨⟨piece, hpiece, rfl⟩, hne⟩ := h
  refine ⟨by simpa using hne, trim_strip piece, fun hcomma => ?_⟩
  apply Words.splitWord_fresh hpiece
  obtain ⟨a, b, hab⟩ := List.append_of_mem (Py.mem_of_mem_strip hcomma)
  exact ⟨a, b, by rw [hab, List.append_assoc]; rfl⟩

/-- Categories the server accepts come through the flag. -/
theorem categoryList_intercalate {T : Templates} {nfc : Str → Str} {cats : List Str}
    (hne : cats ≠ []) (h : ∀ cat ∈ cats, Edge.SlotOk T nfc cat true) :
    categoryList (List.intercalate [','] cats) = cats := by
  have hcomma : ∀ cat ∈ cats, ¬ [','] <:+: cat := by
    rintro cat hcat ⟨a, b, rfl⟩
    exact (h _ hcat).no_comma rfl (by simp)
  have hstrip : cats.map Py.strip = cats := by
    conv_rhs => rw [← List.map_id cats]
    exact List.map_congr_left fun cat hcat =>
      strip_of_trim (h cat hcat).trimmed (h cat hcat).no_control
  rw [categoryList, Words.splitWord_intercalate (by simp) hne hcomma, hstrip]
  exact List.filter_eq_self.mpr fun cat hcat => by simpa using (h cat hcat).ne_nil

theorem length_intercalate_le (sep : Str) {n : Nat} (cats : List Str)
    (h : ∀ cat ∈ cats, cat.length ≤ n) :
    (List.intercalate sep cats).length ≤ cats.length * (n + sep.length) := by
  induction cats with
  | nil => simp
  | cons cat cats ih =>
    rw [List.forall_mem_cons] at h
    have hrest := ih h.2
    have hcat := h.1
    cases cats with
    | nil =>
      rw [List.intercalate_singleton, List.length_singleton]
      omega
    | cons cat' cats =>
      rw [List.intercalate_cons_cons, List.length_cons, Nat.add_mul]
      simp only [List.length_append]
      omega

/-- What is left to the server to check of a category. The rest of its rules hold of whatever
    `--categories` has been split into. -/
structure CategoryOk (nfc : Str → Str) (cat : Str) : Prop where
  length_le : cat.length ≤ 200
  no_control : ∀ c ∈ cat, Rust.isControl c = false
  normal : nfc cat = cat
  no_separator : ¬ "</c>".toList <:+: cat
  no_period : ¬ ['.'] <:+ cat

theorem compile_detection_iff {nfc : Str → Str} {flag : Str} (hne : categoryList flag ≠ []) :
    (∃ compiled, Edge.compile Edge.templates nfc (.detection (categoryList flag)) = .ok compiled) ↔
      (categoryList flag).length ≤ 10 ∧ ∀ cat ∈ categoryList flag, CategoryOk nfc cat := by
  constructor
  · rintro ⟨⟨prompt, task⟩, hcompile⟩
    obtain ⟨ha, -⟩ := (Edge.compile_eq_ok_iff _ _).mp hcompile
    refine ⟨(ha.categories_ok _ rfl).2, fun cat hcat => ?_⟩
    have hslot := ha.slots_ok cat hcat
    exact ⟨hslot.length_le, hslot.no_control, hslot.normal, hslot.no_separator, hslot.no_period⟩
  · rintro ⟨hlen, hcats⟩
    refine ⟨_, (Edge.compile_eq_ok_iff _ _).mpr ⟨⟨?_, ?_, ?_⟩, rfl, rfl⟩⟩
    · intro cats hc
      cases hc
      exact ⟨hne, hlen⟩
    · intro cat hcat
      obtain ⟨hcat_ne, htrim, hcomma⟩ := of_mem_categoryList hcat
      have hok := hcats cat hcat
      exact ⟨hcat_ne, hok.length_le, htrim, hok.no_control, hok.normal, hok.no_separator,
        hok.no_period, fun _ => hcomma⟩
    · -- ten categories do not fill a prompt
      have hle := length_intercalate_le Edge.templates.category_separator (categoryList flag)
        fun cat hcat => (hcats cat hcat).length_le
      have hmul := Nat.mul_le_mul_right (200 + Edge.templates.category_separator.length) hlen
      have hprefix : (Edge.Templates.slotPrefix Edge.templates .detection).length = 65 := by decide
      have hsep : Edge.templates.category_separator.length = 4 := by decide
      rw [Edge.render_eq _ (by simp)]
      simp only [List.length_append, List.length_singleton, Edge.PromptRequest.kind,
        Edge.PromptRequest.slots, hprefix, hsep, Edge.maxPromptChars] at hle hmul ⊢
      omega

/-- **`--categories` reaches every request for detection that the server accepts**, and what it
    makes is accepted as far as the categories' texts allow: that they are stripped, that none is
    empty and that none holds a comma is seen to here. -/
theorem categories_flag (nfc : Str → Str) (args : Args) :
    (∀ cats, (∃ compiled, Edge.compile Edge.templates nfc (.detection cats) = .ok compiled) →
      buildRequest { args with
          task := .detection, categories := some (List.intercalate [','] cats) } =
        .ok (Edge.promptRequest.members (.detection cats))) ∧
    ∀ flag request,
      buildRequest { args with task := .detection, categories := some flag } = .ok request →
      request = Edge.promptRequest.members (.detection (categoryList flag)) ∧
      ((∃ compiled,
          Edge.compile Edge.templates nfc (.detection (categoryList flag)) = .ok compiled) ↔
        (categoryList flag).length ≤ 10 ∧ ∀ cat ∈ categoryList flag, CategoryOk nfc cat) := by
  have hrequest : ∀ flag r,
      requestOf { args with task := .detection, categories := some flag } = some r ↔
        categoryList flag ≠ [] ∧ r = .detection (categoryList flag) := by
    intro flag r
    dsimp only [requestOf, Option.getD_some]
    cases categoryList flag <;> simp [eq_comm]
  constructor
  · rintro cats ⟨⟨prompt, task⟩, hcompile⟩
    obtain ⟨ha, -⟩ := (Edge.compile_eq_ok_iff _ _).mp hcompile
    obtain ⟨hne, -⟩ := ha.categories_ok _ rfl
    have hcats := categoryList_intercalate hne ha.slots_ok
    refine buildRequest_eq_ok_iff.mpr ⟨_, (hrequest _ _).mpr ⟨?_, rfl⟩, ?_⟩
    · rw [hcats]
      exact hne
    · rw [hcats]
  · intro flag request h
    obtain ⟨r, hr, rfl⟩ := buildRequest_eq_ok_iff.mp h
    obtain ⟨hne, rfl⟩ := (hrequest flag r).mp hr
    exact ⟨rfl, compile_detection_iff hne⟩

/-! ## Messages -/

/-- The header of a Frame, as the server has it. -/
def headerOf (args : Args) (r : PromptRequest) (item : Nat × Bytes) : InferHeader where
  frame_id := frameId args.client_id item.1
  request := r
  generation_mode := args.mode
  jpeg_len := item.2.length

/-- The header is the one of a Frame; its length is a `usize`. -/
theorem parse_headerDict {args : Args} {r : PromptRequest} {item : Nat × Bytes}
    (hlen : item.2.length < 2 ^ 64) :
    Edge.inferHeader.parse (.obj (headerDict args (Edge.promptRequest.members r) item)) =
      some (headerOf args r item) := by
  refine Edge.parse_header hlen (List.Perm.of_eq ?_)
  have hmod : (Fin.ofNat (2 ^ 64) item.2.length : Nat) = item.2.length := Nat.mod_eq_of_lt hlen
  show _ = [_, _, _,
    ("jpeg_len".toList, Json.num (.posInt (Fin.ofNat (2 ^ 64) item.2.length : Nat)))]
  rw [hmod]
  rfl

/-- `serde_json` reads the header that `json.dumps` has written. It is asked for the headers
    of this client only, and only where the document is the header of a Frame. -/
def ReadsHeader (cfg : Edge.Config) (dumps : Json Str → Bytes) (args : Args)
    (request : List (Str × Json Str)) (item : Nat × Bytes) : Prop :=
  ∀ header, Edge.inferHeader.parse (.obj (headerDict args request item)) = some header →
    cfg.readHeader (dumps (.obj (headerDict args request item))) = .ok header

/-- **The server answers the message `m`** under the id of its header: it forwards the very request
    and the very JPEG if they pass its checks, and rejects the frame alone if they do not. -/
inductive Answered (cfg : Edge.Config) (header : InferHeader) (jpeg m : Bytes) : Prop where
  | forwarded {prompt task : Str} (haccepts : Edge.Accepts cfg header jpeg)
    (hout : receiveBinary cfg m = some (.pending ⟨header, jpeg, prompt, task⟩))
  | rejected {fault : Edge.FrameFault} (haccepts : ¬ Edge.Accepts cfg header jpeg)
    (hout : receiveBinary cfg m = some (.perFrame header.frame_id fault))

/-- **The message costs the client its connection**: it is larger than the WebSocket takes, or has a
    framing that is not to be trusted. -/
def TakesDown (cfg : Edge.Config) (m : Bytes) : Prop :=
  receiveBinary cfg m = none ∨ ∃ fault, receiveBinary cfg m = some (.fatalFraming fault)

theorem not_answered_of_takesDown {cfg : Edge.Config} {header : InferHeader} {jpeg m : Bytes}
    (h : TakesDown cfg m) : ¬ Answered cfg header jpeg m := by
  intro ha
  rcases h with h | ⟨fault, h⟩ <;> cases ha with
  | forwarded _ hout | rejected _ hout => exact absurd (h.symm.trans hout) (by simp)

/-- Of a message that can be packed, only the id and the size decide whether the connection bears
    it; what else is wrong with a frame is the frame's own affair. -/
theorem message_answered_iff {cfg : Edge.Config} {dumps : Json Str → Bytes} {args : Args}
    {r : PromptRequest} {item : Nat × Bytes} {m : Bytes}
    (hempty : ∀ header, cfg.readHeader [] ≠ .ok header)
    (hread : ReadsHeader cfg dumps args (Edge.promptRequest.members r) item)
    (hlen : item.2.length < 2 ^ 64)
    (hm : message dumps args (Edge.promptRequest.members r) item = some m) :
    (Answered cfg (headerOf args r item) item.2 m ↔
      Rust.len args.client_id + 1 + max 8 (Py.str item.1).length ≤ 256 ∧
        m.length ≤ Edge.maxMessageSize cfg) ∧
    (¬ Answered cfg (headerOf args r item) item.2 m → TakesDown cfg m) := by
  have hheader := hread _ (parse_headerDict hlen)
  simp only [message, Option.ite_none_right_eq_some, Option.some.injEq] at hm
  generalize dumps (.obj (headerDict args (Edge.promptRequest.members r) item)) = e at hheader hm
  have hne : e ≠ [] := by
    rintro rfl
    exact hempty _ hheader
  obtain ⟨hfits, rfl⟩ := hm
  rw [← Framing.encode, ← len_frameId]
  -- where one of the two fails, the connection is lost
  have hlost : ¬ (Rust.len (frameId args.client_id item.1) ≤ 256 ∧
      (Framing.encode e ++ item.2).length ≤ Edge.maxMessageSize cfg) →
      TakesDown cfg (Framing.encode e ++ item.2) := by
    intro hno
    by_cases hsize : (Framing.encode e ++ item.2).length ≤ Edge.maxMessageSize cfg
    · obtain ⟨fault, hl⟩ := Edge.locateHeader_of_not_frameIdOk item.2 hheader hne hfits
        fun hid => hno ⟨hid.2, hsize⟩
      exact .inr ⟨fault, by rw [Edge.receiveBinary_of_le cfg hsize, processBinary, hl]⟩
    · exact .inl (if_neg hsize)
  have hanswered : Rust.len (frameId args.client_id item.1) ≤ 256 ∧
      (Framing.encode e ++ item.2).length ≤ Edge.maxMessageSize cfg →
      Answered cfg (headerOf args r item) item.2 (Framing.encode e ++ item.2) := by
    rintro ⟨hle, hsize⟩
    have hid : Edge.FrameIdOk (headerOf args r item).frame_id := by
      refine ⟨Edge.len_pos ?_, hle⟩
      simp [headerOf, frameId]
    have hl := Edge.locateHeader_of_frameIdOk item.2 hheader hne hfits hid
    have hreceived := Edge.receiveBinary_of_le cfg hsize
    by_cases ha : Edge.Accepts cfg (headerOf args r item) item.2
    · obtain ⟨prompt, task, -, hout⟩ := Edge.processBinary_of_accepts hl ha
      exact .forwarded ha (hreceived.trans (congrArg some hout))
    · obtain ⟨fault, hout, -⟩ := Edge.processBinary_of_not_accepts hl ha
      exact .rejected ha (hreceived.trans (congrArg some hout))
  refine ⟨⟨fun ha => ?_, hanswered⟩, fun hno => hlost fun h => hno (hanswered h)⟩
  by_contra hno
  exact not_answered_of_takesDown (hlost hno) ha

theorem ids_nodup {φ : Type} {S : Source φ} {p : Pipeline φ} {as : List (Action φ)}
    (h : Run (Pipeline.Step S) Pipeline.start as p) (client_id : Str) :
    (p.sent.map fun item => frameId client_id item.1).Nodup := by
  have hfst : ∀ items : List (Nat × φ),
      ((items.filterMap (Pipeline.encoded S)).map Prod.fst).Sublist (items.map Prod.fst) := by
    intro items
    induction items with
    | nil => exact List.Sublist.refl _
    | cons item items ih =>
      rw [List.filterMap_cons, Pipeline.encoded]
      cases S.encode_jpeg item.2 with
      | none => exact ih.cons _
      | some jpeg => exact ih.cons_cons _
  have hsent := (Pipeline.inv_of_run h).sent_eq
  have hnodup : (p.sent.map Prod.fst).Nodup := by
    rw [hsent]
    refine (hfst _).nodup ?_
    exact ((List.take_sublist _ _).map _).nodup (numbered_nodup p.captured)
  have := hnodup.map (frameId_injective client_id)
  rwa [List.map_map] at this

/-- **Every frame is answered under an id of its own**, exactly as long as the ids have up to 256
    bytes and the messages no more than the server's WebSocket takes: forwarded with the very JPEG
    and the request made from the flags, or rejected. Any other takes the connection down. -/
theorem sent_answered_iff {φ : Type} {S : Source φ} {p : Pipeline φ} {as : List (Action φ)}
    {cfg : Edge.Config} {dumps : Json Str → Bytes} {args : Args} {request : List (Str × Json Str)}
    (h : Run (Pipeline.Step S) Pipeline.start as p)
    (hbuild : buildRequest args = .ok request)
    (hempty : ∀ header, cfg.readHeader [] ≠ .ok header)
    (hread : ∀ item ∈ p.sent, ReadsHeader cfg dumps args request item)
    (hlen : ∀ item ∈ p.sent, item.2.length < 2 ^ 64) :
    (p.sent.map fun item => frameId args.client_id item.1).Nodup ∧
      ∃ r, requestOf args = some r ∧ ∀ item ∈ p.sent, ∀ m,
        message dumps args request item = some m →
          (Answered cfg (headerOf args r item) item.2 m ↔
            Rust.len args.client_id + 1 + max 8 (Py.str item.1).length ≤ 256 ∧
              m.length ≤ Edge.maxMessageSize cfg) ∧
          (¬ Answered cfg (headerOf args r item) item.2 m → TakesDown cfg m) := by
  obtain ⟨r, hr, rfl⟩ := buildRequest_eq_ok_iff.mp hbuild
  refine ⟨ids_nodup h args.client_id, r, hr, fun item hitem m hm => ?_⟩
  exact message_answered_iff hempty (hread item hitem) (hlen item hitem) hm

def sampleArgs : Args where
  task := .sceneText
  categories := none
  phrase := none
  text := none
  description := none
  mode := .fast
  client_id := ['c']

/-- The header of the first frame, as `json.dumps` writes it. -/
def sampleText : Bytes :=
  Edge.utf8 ("\x7b\"frame_id\": \"c-00000000\", ".toList ++
    "\"request\": \x7b\"task\": \"scene_text\"\x7d, ".toList ++
    "\"generation_mode\": \"fast\", \"jpeg_len\": 15\x7d".toList)

def sampleServer : Edge.Config :=
  { Edge.sampleConfig [] with
    readHeader := fun e =>
      if e = sampleText then .ok (headerOf sampleArgs .sceneText (0, Edge.sampleJpeg))
      else .error [] }

/-- One frame of 64 by 64 pixels. -/
def sampleCamera : Source Unit where
  queue_max := 4
  resize := some
  encode_jpeg := fun _ => some Edge.sampleJpeg

theorem sent_answered_iff_first :
    Answered sampleServer (headerOf sampleArgs .sceneText (0, Edge.sampleJpeg)) Edge.sampleJpeg
      (Framing.encode sampleText ++ Edge.sampleJpeg) := by
  have hrun : Run (Pipeline.Step sampleCamera) Pipeline.start
      [.openSource true, .read (some ()), .put, .get, .encode, .send]
      { Pipeline.start with
        capture := .reading
        frame_idx := 1
        enqueued := [()]
        taken := [(0, ())]
        sent := [(0, Edge.sampleJpeg)] } := Transition.run_of_exec rfl
  have hread : ∀ item ∈ [(0, Edge.sampleJpeg)], ReadsHeader sampleServer (fun _ => sampleText)
      sampleArgs (Edge.promptRequest.members .sceneText) item := by
    intro item hitem header hparse
    obtain rfl := List.mem_singleton.mp hitem
    rw [parse_headerDict (by decide)] at hparse
    obtain rfl := Option.some.inj hparse
    simp [sampleServer]
  have hempty : ∀ header, sampleServer.readHeader [] ≠ .ok header := by
    intro header
    have hne : [] ≠ sampleText := by decide +kernel
    simp [sampleServer, hne]
  have hlen : ∀ item ∈ [(0, Edge.sampleJpeg)], item.2.length < 2 ^ 64 := by
    intro item hitem
    obtain rfl := List.mem_singleton.mp hitem
    decide
  obtain ⟨-, r, hr, hall⟩ := sent_answered_iff hrun rfl hempty hread hlen
  obtain rfl := Option.some.inj hr
  have hm : message (fun _ => sampleText) sampleArgs (Edge.promptRequest.members .sceneText)
      (0, Edge.sampleJpeg) = some (Framing.encode sampleText ++ Edge.sampleJpeg) := by
    have hfits : sampleText.length < 2 ^ 32 := by decide +kernel
    rw [message, if_pos hfits]
    rfl
  refine (hall _ (List.mem_singleton_self _) _ hm).1.mpr ⟨by decide, ?_⟩
  decide +kernel

end LocateAnything.Client
