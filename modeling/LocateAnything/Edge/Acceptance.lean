import LocateAnything.Edge.Ws

/-!
# What `process_binary` accepts

A message is a header behind its length, and a payload behind the header
(`locateHeader_encode`, `exists_encode`). Once the header is located, the outcome is decided
by a list of checks (`checks`): all hold and the Frame is forwarded, or the first that fails
names the code of the error under the Frame's id (`processBinary_located`).

The list is the point. In the source the checks are spread over four functions that return
early, and the order in which they are made is nowhere written down; yet it is what a client
sees, since a Frame with two faults is answered with the code of one. Here the order is a
value, against which the nested conditionals of `process_binary` are compared once. `Accepts`
says the same without an order, for whoever wants to know what to send.

The bound on the id is measured in bytes where its message and the documents say characters,
so that an id of allowed length can still cost the connection (`correlated_iff`). It is made
before anything can be answered under the id, which is why it is not among the checks.
-/

set_option autoImplicit false

namespace LocateAnything.Edge

open Checks
open Framing (Bytes encode beValue be32)

/-- The image has dimensions, and they satisfy `p`. The checks on the dimensions all fail
    where there are none, but one in front of them has failed already. -/
def Dimensions.ok? (p : Nat → Nat → Bool) : Dimensions → Bool
  | .ok w h => p w h
  | _ => false

section Accept
variable (cfg : Config)

/-- The checks behind the header in the order they are made, each with its error code. Each is
    a condition on the Frame as it stands, and none depends on one before it having held. -/
def checks (header : InferHeader) (jpeg : Bytes) : List (Bool × ErrorCode) :=
  let dims := cfg.readDimensions jpeg
  [((compile templates cfg.nfc header.request).toOption.isSome, .invalidRequest),
   (jpeg.length = header.jpeg_len, .invalidRequest),
   (jpeg ≠ [], .invalidImage),
   (jpeg.length ≤ cfg.maxJpegBytes, .invalidImage),
   (isJpeg jpeg, .invalidImage),
   (match dims with
     | .joinError _ => false
     | _ => true, .internal),
   (dims.ok? fun _ _ => true, .invalidImage),
   (dims.ok? fun w h => minImageDim ≤ w ∧ minImageDim ≤ h, .invalidImage),
   (dims.ok? fun w h => w ≤ cfg.maxImageDim ∧ h ≤ cfg.maxImageDim, .invalidImage),
   (dims.ok? fun w h => w / patchPx * (h / patchPx) ≤ inTokenLimit, .invalidImage),
   (dims.ok? fun w h => resized w / patchPx < posEmbPatchCap ∧
      resized h / patchPx < posEmbPatchCap, .invalidImage)]

/-- The code of the first check that fails: what the client is told. -/
def firstFailing (header : InferHeader) (jpeg : Bytes) : Option ErrorCode :=
  ((checks cfg header jpeg).find? fun c => !c.1).map Prod.snd

/-- The dimensions pass every gate. The last two are of the size the worker will resize to,
    since that is what the position embeddings are for. -/
structure DimensionsOk (w h : Nat) : Prop where
  min_w : minImageDim ≤ w
  min_h : minImageDim ≤ h
  max_w : w ≤ cfg.maxImageDim
  max_h : h ≤ cfg.maxImageDim
  patches : w / patchPx * (h / patchPx) ≤ inTokenLimit
  positions_w : resized w / patchPx < posEmbPatchCap
  positions_h : resized h / patchPx < posEmbPatchCap

/-- **What a Frame must be to be forwarded.** The conditions of `checks`, without their order.
    -/
structure Accepts (header : InferHeader) (jpeg : Bytes) : Prop where
  compiles : ∃ compiled, compile templates cfg.nfc header.request = .ok compiled
  jpeg_len : jpeg.length = header.jpeg_len
  jpeg_ne : jpeg ≠ []
  jpeg_le : jpeg.length ≤ cfg.maxJpegBytes
  soi : jpeg.take 3 = [0xFF, 0xD8, 0xFF]
  dimensions : ∃ w h, cfg.readDimensions jpeg = .ok w h ∧ DimensionsOk cfg w h

/-- The bound on the id, in bytes. -/
def FrameIdOk (frame_id : Str) : Prop := 1 ≤ Rust.len frame_id ∧ Rust.len frame_id ≤ 256

instance (frame_id : Str) : Decidable (FrameIdOk frame_id) :=
  inferInstanceAs (Decidable (1 ≤ Rust.len frame_id ∧ Rust.len frame_id ≤ 256))

variable {cfg}

theorem firstFailing_eq_none_iff {header : InferHeader} {jpeg : Bytes} :
    firstFailing cfg header jpeg = none ↔ Accepts cfg header jpeg := by
  simp only [firstFailing, Option.map_eq_none_iff, List.find?_eq_none, checks,
    List.forall_mem_cons, Bool.not_eq_true', Bool.not_eq_false, decide_eq_true_eq,
    List.not_mem_nil, IsEmpty.forall_iff, implies_true, and_true]
  constructor
  · rintro ⟨hc, hlen, hne, hle, hsoi, -, hok, hmin, hmax, hpatches, hpos⟩
    cases hd : cfg.readDimensions jpeg with
    | malformed e => simp [hd, Dimensions.ok?] at hok
    | joinError e => simp [hd, Dimensions.ok?] at hok
    | ok w h =>
      simp only [hd, Dimensions.ok?, decide_eq_true_eq] at hmin hmax hpatches hpos
      refine ⟨?_, hlen, hne, hle, by simpa [isJpeg] using hsoi, w, h, hd,
        ⟨hmin.1, hmin.2, hmax.1, hmax.2, hpatches, hpos.1, hpos.2⟩⟩
      cases hcompile : compile templates cfg.nfc header.request with
      | error e => simp [hcompile, Except.toOption] at hc
      | ok c => exact ⟨c, rfl⟩
  · rintro ⟨⟨c, hc⟩, hlen, hne, hle, hsoi, w, h, hd, hdims⟩
    simp only [hd, Dimensions.ok?, decide_eq_true_eq, hc, Except.toOption, Option.isSome_some]
    exact ⟨trivial, hlen, hne, hle, by simpa [isJpeg] using hsoi, trivial, trivial,
      ⟨hdims.min_w, hdims.min_h⟩, ⟨hdims.max_w, hdims.max_h⟩, hdims.patches,
      ⟨hdims.positions_w, hdims.positions_h⟩⟩

/-! ## The outcome, by checks -/

/-- The gates of `check_dimensions` are the end of the list. -/
theorem firstFailing_dimensions {header : InferHeader} {jpeg : Bytes} {c : Str × Str} {w h : Nat}
    (hc : compile templates cfg.nfc header.request = .ok c) (hlen : jpeg.length = header.jpeg_len)
    (hne : jpeg ≠ []) (hle : jpeg.length ≤ cfg.maxJpegBytes) (hsoi : isJpeg jpeg = true)
    (hd : cfg.readDimensions jpeg = .ok w h) :
    firstFailing cfg header jpeg =
      match checkDimensions cfg w h with
      | .ok () => none
      | .error fault => some fault.code := by
  unfold checkDimensions
  by_cases hmin : w < minImageDim ∨ h < minImageDim
  · have : ¬ (minImageDim ≤ w ∧ minImageDim ≤ h) := by omega
    simp [firstFailing, checks, hc, Except.toOption, hlen ▸ hle, hlen, hne, hsoi, hd,
      Dimensions.ok?, hmin, this, FrameFault.code]
  have hmin' : minImageDim ≤ w ∧ minImageDim ≤ h := by omega
  by_cases hmax : w > cfg.maxImageDim ∨ h > cfg.maxImageDim
  · have : ¬ (w ≤ cfg.maxImageDim ∧ h ≤ cfg.maxImageDim) := by omega
    simp [firstFailing, checks, hc, Except.toOption, hlen ▸ hle, hlen, hne, hsoi, hd,
      Dimensions.ok?, hmin, hmin', hmax, this, FrameFault.code]
  have hmax' : w ≤ cfg.maxImageDim ∧ h ≤ cfg.maxImageDim := by omega
  by_cases hpatches : w / patchPx * (h / patchPx) > inTokenLimit
  · simp [firstFailing, checks, hc, Except.toOption, hlen ▸ hle, hlen, hne, hsoi, hd,
      Dimensions.ok?, hmin, hmin', hmax, hmax', hpatches, Nat.not_le.mpr hpatches, FrameFault.code]
  by_cases hpos : resized w / patchPx ≥ posEmbPatchCap ∨ resized h / patchPx ≥ posEmbPatchCap
  · have : ¬ (resized w / patchPx < posEmbPatchCap ∧ resized h / patchPx < posEmbPatchCap) := by
      omega
    simp [firstFailing, checks, hc, Except.toOption, hlen ▸ hle, hlen, hne, hsoi, hd,
      Dimensions.ok?, hmin, hmin', hmax, hmax', hpatches, Nat.not_lt.mp hpatches, hpos, this,
      FrameFault.code]
  · rw [if_neg hmin, if_neg hmax, if_neg hpatches, if_neg hpos]
    refine firstFailing_eq_none_iff.mpr ⟨⟨c, hc⟩, hlen, hne, hle, by simpa [isJpeg] using hsoi,
      w, h, hd, ?_⟩
    exact ⟨by omega, by omega, by omega, by omega, by omega, by omega, by omega⟩

/-- The checks of `check_jpeg` are the list behind the first: the request has been compiled by
    then. -/
theorem firstFailing_eq {header : InferHeader} {jpeg : Bytes} {c : Str × Str}
    (hc : compile templates cfg.nfc header.request = .ok c) :
    firstFailing cfg header jpeg =
      match checkJpeg cfg header.jpeg_len jpeg with
      | .ok () => none
      | .error fault => some fault.code := by
  unfold checkJpeg
  by_cases hlen : jpeg.length = header.jpeg_len
  swap
  · simp [firstFailing, checks, hc, Except.toOption, hlen, FrameFault.code]
  by_cases hne : jpeg = []
  · subst hne
    simp [firstFailing, checks, hc, Except.toOption, ← hlen, FrameFault.code]
  by_cases hle : jpeg.length > cfg.maxJpegBytes
  · have : ¬ header.jpeg_len ≤ cfg.maxJpegBytes := by omega
    simp [firstFailing, checks, hc, Except.toOption, hlen, hne, this, hlen ▸ hle, FrameFault.code]
  have hle' : header.jpeg_len ≤ cfg.maxJpegBytes := by omega
  by_cases hsoi : isJpeg jpeg = false
  · simp [firstFailing, checks, hc, Except.toOption, hlen, hne, hle', hlen ▸ hle, hsoi,
      FrameFault.code]
  rw [if_neg (not_not.mpr hlen), if_neg hne, if_neg hle, if_neg hsoi]
  have hsoi' : isJpeg jpeg = true := by simpa using hsoi
  cases hd : cfg.readDimensions jpeg with
  | malformed e =>
    simp [firstFailing, checks, hc, Except.toOption, hlen, hne, hle', hsoi', hd, Dimensions.ok?,
      FrameFault.code]
  | joinError e =>
    simp [firstFailing, checks, hc, Except.toOption, hlen, hne, hle', hsoi', hd, FrameFault.code]
  | ok w h => exact firstFailing_dimensions hc hlen hne (by omega) hsoi' hd

/-- **Behind a located header the checks decide.** -/
theorem processBinary_located {m jpeg : Bytes} {header : InferHeader}
    (hl : locateHeader cfg m = .ok (header, jpeg)) :
    match firstFailing cfg header jpeg with
    | none => ∃ prompt task, compile templates cfg.nfc header.request = .ok (prompt, task) ∧
        processBinary cfg m = .pending ⟨header, jpeg, prompt, task⟩
    | some code => ∃ fault, processBinary cfg m = .perFrame header.frame_id fault ∧
        fault.code = code := by
  rw [processBinary, hl]
  cases hc : compile templates cfg.nfc header.request with
  | error e =>
    have : firstFailing cfg header jpeg = some .invalidRequest := by
      simp [firstFailing, checks, hc, Except.toOption]
    rw [this]
    exact ⟨.request e, by simp [hc], rfl⟩
  | ok c =>
    obtain ⟨prompt, task⟩ := c
    rw [firstFailing_eq hc]
    simp only [hc]
    cases checkJpeg cfg header.jpeg_len jpeg with
    | error fault => exact ⟨fault, rfl, rfl⟩
    | ok u => exact ⟨prompt, task, rfl, rfl⟩

theorem processBinary_of_accepts {m jpeg : Bytes} {header : InferHeader}
    (hl : locateHeader cfg m = .ok (header, jpeg)) (ha : Accepts cfg header jpeg) :
    ∃ prompt task, compile templates cfg.nfc header.request = .ok (prompt, task) ∧
      processBinary cfg m = .pending ⟨header, jpeg, prompt, task⟩ := by
  have h := processBinary_located hl
  rw [firstFailing_eq_none_iff.mpr ha] at h
  exact h

/-- A Frame that is not accepted is answered under its id, with the code of its first fault.
    -/
theorem processBinary_of_not_accepts {m jpeg : Bytes} {header : InferHeader}
    (hl : locateHeader cfg m = .ok (header, jpeg)) (ha : ¬ Accepts cfg header jpeg) :
    ∃ fault, processBinary cfg m = .perFrame header.frame_id fault ∧
      firstFailing cfg header jpeg = some fault.code := by
  have h := processBinary_located hl
  cases hf : firstFailing cfg header jpeg with
  | none => exact absurd (firstFailing_eq_none_iff.mp hf) ha
  | some code =>
    rw [hf] at h
    obtain ⟨fault, hout, hcode⟩ := h
    exact ⟨fault, hout, by rw [hcode]⟩

/-- A Frame to forward has been located, and passes every check. -/
theorem located_of_pending {m : Bytes} {p : PendingFrame} (hp : processBinary cfg m = .pending p) :
    locateHeader cfg m = .ok (p.header, p.jpeg) ∧ Accepts cfg p.header p.jpeg ∧
      compile templates cfg.nfc p.header.request = .ok (p.prompt, p.prompt_task) := by
  cases hl : locateHeader cfg m with
  | error fault =>
    rw [processBinary, hl] at hp
    exact absurd hp (by simp)
  | ok located =>
    obtain ⟨header, jpeg⟩ := located
    by_cases ha : Accepts cfg header jpeg
    · obtain ⟨prompt, task, hc, hout⟩ := processBinary_of_accepts hl ha
      rw [hout] at hp
      cases hp
      exact ⟨rfl, ha, hc⟩
    · obtain ⟨fault, hout, -⟩ := processBinary_of_not_accepts hl ha
      rw [hout] at hp
      exact absurd hp (by simp)

/-! ## Messages -/

theorem len_pos {s : Str} (h : s ≠ []) : 1 ≤ Rust.len s := by
  obtain ⟨c, t, rfl⟩ := List.exists_cons_of_ne_nil h
  have := Char.utf8Size_pos c
  simp only [Rust.len, List.map_cons, List.sum_cons]
  omega

/-- The header of a message is what stands behind its length, if the id is in bounds. -/
theorem locateHeader_encode {e jpeg : Bytes} {header : InferHeader}
    (hread : cfg.readHeader e = .ok header) (hne : e ≠ []) (hlen : e.length < 2 ^ 32) :
    locateHeader cfg (encode e ++ jpeg) =
      if header.frame_id = [] then .error .emptyFrameId
      else if Rust.len header.frame_id > 256 then
        .error (.longFrameId (Rust.len header.frame_id))
      else .ok (header, jpeg) := by
  have hpos := List.length_pos_iff.mpr hne
  have hn : beValue ((encode e ++ jpeg).take 4) = e.length := by
    rw [Framing.take_four_encode, Framing.beValue_be32 hlen]
  have hdrop : (encode e ++ jpeg).drop 4 = e ++ jpeg := by
    rw [encode, List.append_assoc]
    exact List.drop_left' (Framing.be32_length _)
  have hrest : (encode e ++ jpeg).drop (4 + e.length) = jpeg := by
    rw [← List.drop_drop, hdrop, List.drop_left]
  have h4 : ¬ (encode e ++ jpeg).length < 4 := by simp; omega
  have hfit : ¬ 4 + e.length > (encode e ++ jpeg).length := by simp
  simp only [locateHeader, hn, if_neg h4, if_neg hpos.ne', if_neg hfit, hdrop, List.take_left,
    hread, hrest]

theorem locateHeader_of_frameIdOk {e : Bytes} (jpeg : Bytes) {header : InferHeader}
    (hread : cfg.readHeader e = .ok header) (hne : e ≠ []) (hlen : e.length < 2 ^ 32)
    (hid : FrameIdOk header.frame_id) :
    locateHeader cfg (encode e ++ jpeg) = .ok (header, jpeg) := by
  rw [locateHeader_encode hread hne hlen, if_neg, if_neg (Nat.not_lt.mpr hid.2)]
  intro hnil
  have := hid.1
  rw [hnil] at this
  exact absurd this (by decide)

/-- An id that is empty or too long ends the connection, whatever the payload. -/
theorem locateHeader_of_not_frameIdOk {e : Bytes} (jpeg : Bytes) {header : InferHeader}
    (hread : cfg.readHeader e = .ok header) (hne : e ≠ []) (hlen : e.length < 2 ^ 32)
    (hid : ¬ FrameIdOk header.frame_id) :
    ∃ fault, locateHeader cfg (encode e ++ jpeg) = .error fault := by
  rw [locateHeader_encode hread hne hlen]
  by_cases hnil : header.frame_id = []
  · exact ⟨_, if_pos hnil⟩
  · have hlong : Rust.len header.frame_id > 256 := by
      by_contra hle
      exact hid ⟨len_pos hnil, Nat.not_lt.mp hle⟩
    exact ⟨_, by rw [if_neg hnil, if_pos hlong]⟩

/-- Only such a message is located, and the length in front of it is that of the header. -/
theorem exists_encode {m jpeg : Bytes} {header : InferHeader}
    (h : locateHeader cfg m = .ok (header, jpeg)) :
    ∃ e, m = encode e ++ jpeg ∧ e.length < 2 ^ 32 ∧ cfg.readHeader e = .ok header ∧
      FrameIdOk header.frame_id := by
  unfold locateHeader at h
  obtain ⟨h4, h⟩ := ite_error_eq_ok.mp h
  obtain ⟨-, h⟩ := ite_error_eq_ok.mp h
  obtain ⟨hfit, h⟩ := ite_error_eq_ok.mp h
  split at h
  · exact absurd h (by simp)
  rename_i header' hread
  obtain ⟨hid, h⟩ := ite_error_eq_ok.mp h
  obtain ⟨hlong, h⟩ := ite_error_ok_eq_ok.mp h
  obtain ⟨rfl, rfl⟩ := Prod.mk.inj h
  -- the message is its own length prefix, header and rest
  have htake : (m.take 4).length = 4 := by
    rw [List.length_take]
    omega
  have hlen : ((m.drop 4).take (beValue (m.take 4))).length = beValue (m.take 4) := by
    rw [List.length_take, List.length_drop]
    omega
  refine ⟨(m.drop 4).take (beValue (m.take 4)), ?_, ?_, hread, len_pos hid, Nat.not_lt.mp hlong⟩
  · rw [encode, hlen, Framing.be32_beValue htake, List.append_assoc, ← List.drop_drop,
      List.take_append_drop, List.take_append_drop]
  · rw [hlen]
    exact Framing.beValue_lt htake

/-- **A Frame is forwarded exactly if it is a well-formed message that passes every check**; the
    id in front of them costs the connection, each of them only the Frame. -/
theorem pending_iff_accepts (cfg : Config) (hempty : ∀ header, cfg.readHeader [] ≠ .ok header) :
    (∀ header e jpeg, cfg.readHeader e = .ok header → e.length < 2 ^ 32 →
      (∀ prompt task,
        processBinary cfg (be32 e.length ++ e ++ jpeg) = .pending ⟨header, jpeg, prompt, task⟩ ↔
          FrameIdOk header.frame_id ∧ Accepts cfg header jpeg ∧
            compile templates cfg.nfc header.request = .ok (prompt, task)) ∧
      (¬ FrameIdOk header.frame_id →
        ∃ fault, processBinary cfg (be32 e.length ++ e ++ jpeg) = .fatalFraming fault) ∧
      (FrameIdOk header.frame_id → ¬ Accepts cfg header jpeg →
        ∃ fault, processBinary cfg (be32 e.length ++ e ++ jpeg) =
            .perFrame header.frame_id fault ∧
          firstFailing cfg header jpeg = some fault.code)) ∧
    (∀ m p, processBinary cfg m = .pending p →
      ∃ e, m = be32 e.length ++ e ++ p.jpeg ∧ e.length < 2 ^ 32 ∧
        cfg.readHeader e = .ok p.header ∧ FrameIdOk p.header.frame_id ∧
        Accepts cfg p.header p.jpeg ∧
        compile templates cfg.nfc p.header.request = .ok (p.prompt, p.prompt_task)) := by
  refine ⟨fun header e jpeg hread hlen => ?_, fun m p hp => ?_⟩
  · have hne : e ≠ [] := by
      rintro rfl
      exact hempty header hread
    change (∀ prompt task, processBinary cfg (encode e ++ jpeg) = _ ↔ _) ∧ _
    refine ⟨fun prompt task => ⟨fun hp => ?_, ?_⟩, fun hid => ?_, fun hid ha => ?_⟩
    · obtain ⟨hl, ha, hc⟩ := located_of_pending hp
      obtain ⟨-, -, -, -, hid⟩ := exists_encode hl
      exact ⟨hid, ha, hc⟩
    · rintro ⟨hid, ha, hc⟩
      obtain ⟨prompt', task', hc', hout⟩ :=
        processBinary_of_accepts (locateHeader_of_frameIdOk jpeg hread hne hlen hid) ha
      rw [hc] at hc'
      cases hc'
      exact hout
    · obtain ⟨fault, hl⟩ := locateHeader_of_not_frameIdOk jpeg hread hne hlen hid
      exact ⟨fault, by rw [processBinary, ← encode, hl]⟩
    · exact processBinary_of_not_accepts (locateHeader_of_frameIdOk jpeg hread hne hlen hid) ha
  · obtain ⟨hl, ha, hc⟩ := located_of_pending hp
    obtain ⟨e, rfl, hlen, hread, hid⟩ := exists_encode hl
    exact ⟨e, rfl, hlen, hread, hid, ha, hc⟩

/-! ## A Frame, in bytes -/

/-- The UTF-8 bytes of a text. -/
def utf8 (s : Str) : Bytes := s.flatMap String.utf8EncodeChar

/-- The JSON text of a header that asks for scene text in `fast` mode; `frame_id` needs no
    escapes. -/
def sampleText (frame_id : Str) (jpeg_len : Nat) : Bytes :=
  utf8 ("\x7b\"frame_id\":\"".toList ++ frame_id ++
    ("\",\"request\":\x7b\"task\":\"scene_text\"\x7d,\"generation_mode\":\"fast\"," ++
     "\"jpeg_len\":").toList ++ display jpeg_len ++ "\x7d".toList)

def sampleHeader (frame_id : Str) (jpeg_len : Nat) : InferHeader where
  frame_id := frame_id
  request := .sceneText
  generation_mode := .fast
  jpeg_len := jpeg_len

/-- SOI and a frame header of 64 by 64 pixels. -/
def sampleJpeg : Bytes := [0xFF, 0xD8, 0xFF, 0xC0, 0, 11, 8, 0, 64, 0, 64, 1, 1, 0x11, 0]

/-- An edge whose readers know one header and one image. -/
def sampleConfig (frame_id : Str) : Config where
  maxJpegBytes := 1024
  maxImageDim := 2240
  nfc := id
  readHeader e :=
    if e = sampleText frame_id sampleJpeg.length then
      .ok (sampleHeader frame_id sampleJpeg.length)
    else .error []
  readDimensions jpeg := if jpeg = sampleJpeg then .ok 64 64 else .malformed []

theorem sampleConfig_readHeader (frame_id : Str) :
    (sampleConfig frame_id).readHeader (sampleText frame_id sampleJpeg.length) =
      .ok (sampleHeader frame_id sampleJpeg.length) := by
  simp [sampleConfig]

theorem sampleConfig_readHeader_nil (frame_id : Str) (header : InferHeader) :
    (sampleConfig frame_id).readHeader [] ≠ .ok header := by
  have hne : [] ≠ sampleText frame_id sampleJpeg.length := by
    intro h
    have := congrArg List.length h
    simp [sampleText, utf8, String.utf8EncodeChar] at this
  simp only [sampleConfig, if_neg hne]
  exact fun h => absurd h (by simp)

theorem sampleConfig_readDimensions (frame_id : Str) :
    (sampleConfig frame_id).readDimensions sampleJpeg = .ok 64 64 := by
  simp [sampleConfig]

theorem pending_iff_accepts_sample :
    let e := sampleText "f-1".toList sampleJpeg.length
    processBinary (sampleConfig "f-1".toList) (be32 e.length ++ e ++ sampleJpeg) =
      .pending ⟨sampleHeader "f-1".toList sampleJpeg.length, sampleJpeg,
        templates.scene_text_exact, "scene_text".toList⟩ := by
  refine (((pending_iff_accepts _ (sampleConfig_readHeader_nil _)).1 _ _ sampleJpeg
    (sampleConfig_readHeader _) (by decide +kernel)).1 _ _).mpr
    ⟨by decide +kernel, ⟨⟨_, rfl⟩, rfl, by decide, by decide, rfl, 64, 64,
      sampleConfig_readDimensions _, ?_⟩, rfl⟩
  exact ⟨by decide, by decide, by decide, by decide, by decide, by decide, by decide⟩

/-! ## Correlated errors -/

/-- The length prefix of `m` fits, and `header` is behind it: the client has done its part. -/
def HasHeader (cfg : Config) (m : Bytes) (header : InferHeader) : Prop :=
  ∃ e jpeg, m = encode e ++ jpeg ∧ e ≠ [] ∧ e.length < 2 ^ 32 ∧ cfg.readHeader e = .ok header

/-- **A Frame with an id of up to 256 characters is answered under its id exactly if the id has
    up to 256 bytes**; any other costs the connection. -/
theorem correlated_iff (cfg : Config) (m : Bytes) (header : InferHeader)
    (hm : HasHeader cfg m header)
    (hid : 1 ≤ header.frame_id.length ∧ header.frame_id.length ≤ 256) :
    ((∀ fault, processBinary cfg m ≠ .fatalFraming fault) ∧
      ((∃ p, processBinary cfg m = .pending p ∧ p.header.frame_id = header.frame_id) ∨
        ∃ fault, processBinary cfg m = .perFrame header.frame_id fault)) ↔
      Rust.len header.frame_id ≤ 256 := by
  obtain ⟨e, jpeg, rfl, hne, hlen, hread⟩ := hm
  have hnil : header.frame_id ≠ [] := List.length_pos_iff.mp hid.1
  constructor
  · rintro ⟨hfatal, -⟩
    by_contra hlong
    obtain ⟨fault, hl⟩ := locateHeader_of_not_frameIdOk jpeg hread hne hlen
      fun h => hlong h.2
    exact hfatal fault (by rw [processBinary, hl])
  · intro hle
    have hl := locateHeader_of_frameIdOk jpeg hread hne hlen ⟨len_pos hnil, hle⟩
    by_cases ha : Accepts cfg header jpeg
    · obtain ⟨prompt, task, -, hout⟩ := processBinary_of_accepts hl ha
      exact ⟨fun fault => by rw [hout]; simp, .inl ⟨_, hout, rfl⟩⟩
    · obtain ⟨fault, hout, -⟩ := processBinary_of_not_accepts hl ha
      exact ⟨fun fault => by rw [hout]; simp, .inr ⟨fault, hout⟩⟩

theorem correlated_iff_sample :
    let m := encode (sampleText "f-1".toList sampleJpeg.length) ++ sampleJpeg
    ∀ fault, processBinary (sampleConfig "f-1".toList) m ≠ .fatalFraming fault := by
  have hm : HasHeader (sampleConfig "f-1".toList)
      (encode (sampleText "f-1".toList sampleJpeg.length) ++ sampleJpeg)
      (sampleHeader "f-1".toList sampleJpeg.length) :=
    ⟨_, _, rfl, by decide +kernel, by decide +kernel, sampleConfig_readHeader _⟩
  exact ((correlated_iff _ _ _ hm (by decide)).mpr (by decide)).1

/-- `é`, 129 times: 129 characters in 258 bytes. -/
def longId : Str := List.replicate 129 'é'

/-- **An id of 129 characters costs the connection.** -/
theorem long_id_not_correlated :
    HasHeader (sampleConfig longId) (encode (sampleText longId sampleJpeg.length) ++ sampleJpeg)
      (sampleHeader longId sampleJpeg.length) ∧
    longId.length = 129 ∧
    processBinary (sampleConfig longId)
        (encode (sampleText longId sampleJpeg.length) ++ sampleJpeg) =
      .fatalFraming (.longFrameId 258) := by
  have hread := sampleConfig_readHeader longId
  have hne : sampleText longId sampleJpeg.length ≠ [] := by decide +kernel
  have hlen : (sampleText longId sampleJpeg.length).length < 2 ^ 32 := by decide +kernel
  refine ⟨⟨_, _, rfl, hne, hlen, hread⟩, by decide +kernel, ?_⟩
  rw [processBinary, locateHeader_encode hread hne hlen, if_neg (by decide +kernel),
    if_pos (by decide +kernel)]
  have hbytes : Rust.len longId = 258 := by decide +kernel
  simp only [sampleHeader, hbytes]

end Accept

end LocateAnything.Edge
