import LocateAnything.Edge.PromptValidator
import LocateAnything.Edge.Protocol
import LocateAnything.Lib.Framing

/-!
# `ws.rs`: `process_binary`

From one WebSocket message to its outcome: a Frame to forward, a fault to report to the client
under the Frame's id, or framing that cannot be trusted any more. The JSON reader and the
reader of the JPEG header are part of the `Edge`, as functions: what they make of their bytes
is up to the crates, and nothing here depends on how.

The three outcomes are why the function is in two parts. As long as the header has not been
located there is no id to report under, so every fault up to there is fatal and closes the
connection with 1008 (`FramingFault`); every fault behind it concerns one Frame and leaves the
connection open (`FrameFault`). `locateHeader` is the first part. In the source the two follow
one another in one function, and it is the type of the error that keeps them apart.

The faults are data, and their texts functions of the data: a message is a claim about the
code like any other, but proofs should be about what is wrong and not about how it is put.

A message may also be too large for the WebSocket as such. It is then an error of the
connection, and `process_binary` does not see it (`receiveBinary`).
-/

set_option autoImplicit false

namespace LocateAnything.Edge

open Checks
open Framing (Bytes)

/-- `InferHeader`: what a client says about a Frame, beside the JPEG itself. `jpeg_len` says
    nothing that the message's own length does not; it is there to be compared with it. -/
structure InferHeader where
  frame_id : Str
  request : PromptRequest
  generation_mode : GenerationMode
  jpeg_len : Nat

/-- `MIN_IMAGE_DIM` -/
def minImageDim : Nat := 32

/-- What `spawn_blocking(read_dimensions_blocking)` comes back with. -/
inductive Dimensions where
  | ok (w h : Nat)
  | malformed (e : Str)
  | joinError (e : Str)

/-- What `process_binary` is run with: its arguments and the crates it calls. -/
structure Config where
  maxJpegBytes : Nat
  maxImageDim : Nat
  nfc : Str → Str
  /-- `serde_json::from_slice::<InferHeader>` -/
  readHeader : Bytes → Except Str InferHeader
  readDimensions : Bytes → Dimensions

/-- Why the connection is closed with 1008. -/
inductive FramingFault where
  | short (len : Nat)
  | noHeader
  | pastEnd (headerLen len : Nat)
  | badHeader (e : Str)
  | emptyFrameId
  | longFrameId (len : Nat)

/-- The reason given in the Close frame. The texts are the source's, with its own words for
    the numbers. -/
def FramingFault.reason : FramingFault → Str
  | short len =>
    "WS binary frame is ".toList ++ display len ++
    (" bytes but a 4-byte BE u32 length-prefix header is required (see " ++
     "docs/CLIENT_PROTOCOL.md)").toList
  | noHeader => "header_len prefix is 0; the JSON header is mandatory".toList
  | pastEnd headerLen len =>
    "declared header_len=".toList ++ display headerLen ++
    " extends past total binary frame size ".toList ++ display len ++
    " (header_len must fit AND leave room for the JPEG payload)".toList
  | badHeader e =>
    "header JSON parse failed: ".toList ++ e ++
    (". Required keys: frame_id, request (a typed \x7b\"task\":...\x7d object), " ++
     "generation_mode (\"fast\"|\"hybrid\"|\"slow\"), jpeg_len. Extra keys rejected. See " ++
     "docs/CLIENT_PROTOCOL.md.").toList
  | emptyFrameId =>
    ("header.frame_id is empty; frame_id is required as the response correlation primitive — " ++
     "without it we cannot send a per-frame error").toList
  | longFrameId len =>
    "header.frame_id length ".toList ++ display len ++
    " > 256 chars (bounded to keep log lines manageable)".toList

/-- Why one Frame is rejected. -/
inductive FrameFault where
  | request (e : SlotError)
  | jpegLen (declared actual : Nat)
  | emptyPayload
  | payloadTooLarge (len max : Nat)
  | notJpeg (b₀ b₁ b₂ : UInt8)
  | malformedJpeg (e : Str)
  | joinError (e : Str)
  | tooSmall (w h : Nat)
  | tooLarge (w h max : Nat)
  | tooManyPatches (w h patches : Nat)
  | tooManyPositions (w h targetW targetH patchesW patchesH : Nat)

/-- Whose fault it is, for the client's program to go by. -/
def FrameFault.code : FrameFault → ErrorCode
  | request _ | jpegLen _ _ => .invalidRequest
  | joinError _ => .internal
  | _ => .invalidImage

/-- `{:02X}` -/
def hex2 (b : UInt8) : Str :=
  let ds := (Nat.toDigits 16 b.toNat).map Char.toUpper
  List.replicate (2 - ds.length) '0' ++ ds

/-- `{w}x{h}` -/
def dims (w h : Nat) : Str := display w ++ "x".toList ++ display h

def patchPx : Nat := 14

def inTokenLimit : Nat := 25600

def posEmbPatchCap : Nat := 512

def llmTokenPx : Nat := 28

/-- What is reported to the client's author, in the source's words. -/
def FrameFault.message : FrameFault → Str
  | request e => "request rejected: ".toList ++ e.message
  | jpegLen declared actual =>
    "header.jpeg_len=".toList ++ display declared ++ " != actual payload length ".toList ++
    display actual ++ " (these must match exactly — mismatch indicates a framing bug)".toList
  | emptyPayload => "JPEG payload is zero bytes (a Frame must carry a JPEG image)".toList
  | payloadTooLarge len max =>
    "JPEG payload ".toList ++ display len ++
    " bytes exceeds server cap LA_MAX_JPEG_BYTES=".toList ++ display max ++
    " (configurable in scripts/lib/versions.sh)".toList
  | notJpeg b₀ b₁ b₂ =>
    "payload first bytes [".toList ++ hex2 b₀ ++ ", ".toList ++ hex2 b₁ ++ ", ".toList ++
    hex2 b₂ ++
    ("] are not the JPEG SOI marker FF D8 FF; we accept only baseline JPEG with the standard " ++
     "signature").toList
  | malformedJpeg e =>
    "JPEG header parse failed: ".toList ++ e ++
    (" (the SOI marker matched but the JPEG structure is malformed — check the encoder " ++
     "output)").toList
  | joinError e =>
    "spawn_blocking for jpeg_decoder join error: ".toList ++ e ++
    " (this is a tokio runtime issue, not a client error)".toList
  | tooSmall w h =>
    "image dimensions ".toList ++ dims w h ++ " below MIN_IMAGE_DIM=".toList ++
    display minImageDim ++
    (" (a useful input must occupy at least one LLM token in the model's 28px " ++
     "grid)").toList
  | tooLarge w h max =>
    "image dimensions ".toList ++ dims w h ++ " exceed LA_MAX_IMAGE_DIM=".toList ++ display max ++
    (" (configurable in scripts/lib/versions.sh; the model's preprocessor rescales anything " ++
     "above ~2240px square to fit its 25600-patch cap)").toList
  | tooManyPatches w h patches =>
    "image dimensions ".toList ++ dims w h ++ " produce ".toList ++ display patches ++
    " ViT patches ((W // ".toList ++ display patchPx ++ ") × (H // ".toList ++ display patchPx ++
    ")), exceeding the trained `in_token_limit = ".toList ++ display inTokenLimit ++
    ("`. The model's preprocessor would internally BICUBIC-downscale to fit, producing " ++
     "detections relative to a smaller image than the one you sent — we refuse this rather " ++
     "than silently scale. Reduce dimensions so (W // ").toList ++ display patchPx ++
    ") × (H // ".toList ++ display patchPx ++ ") ≤ ".toList ++ display inTokenLimit ++ ".".toList
  | tooManyPositions w h targetW targetH patchesW patchesH =>
    "image dimensions ".toList ++ dims w h ++ " resize to ".toList ++ display targetW ++
    "×".toList ++ display targetH ++ " on the 28-px grid = a ".toList ++ display patchesW ++
    "×".toList ++ display patchesH ++
    (" ViT patch grid; the MoonViT positional embedding's bicubic-interpolation cap is ").toList ++
    display posEmbPatchCap ++
    (" patches per side, per the model's preprocessor rescale() (\"Exceed pos emb\"). Reduce " ++
     "each dimension so ceil(dim/28)*2 < ").toList ++ display posEmbPatchCap ++ ".".toList

/-- A Frame that has passed every check, with the prompt its request was compiled to. -/
structure PendingFrame where
  header : InferHeader
  jpeg : Bytes
  prompt : Str
  prompt_task : Str

/-- `BinaryOutcome`. Of the last two only one leaves the connection open. -/
inductive BinaryOutcome where
  | pending (p : PendingFrame)
  | fatalFraming (fault : FramingFault)
  | perFrame (frame_id : Str) (fault : FrameFault)

/-- `is_jpeg`. Fewer than three bytes are none. -/
def isJpeg (b : Bytes) : Bool := b.take 3 = [0xFF, 0xD8, 0xFF]

/-- `ceil(dim / 28) * 28`: the side the worker will resize to. -/
def resized (dim : Nat) : Nat := (dim + llmTokenPx - 1) / llmTokenPx * llmTokenPx

section ProcessBinary
variable (cfg : Config)

/-- Step 6: the dimensions of the image. -/
def checkDimensions (w h : Nat) : Except FrameFault Unit :=
  if w < minImageDim ∨ h < minImageDim then .error (.tooSmall w h)
  else if w > cfg.maxImageDim ∨ h > cfg.maxImageDim then .error (.tooLarge w h cfg.maxImageDim)
  else if w / patchPx * (h / patchPx) > inTokenLimit then
    .error (.tooManyPatches w h (w / patchPx * (h / patchPx)))
  else if resized w / patchPx ≥ posEmbPatchCap ∨ resized h / patchPx ≥ posEmbPatchCap then
    .error (.tooManyPositions w h (resized w) (resized h) (resized w / patchPx)
      (resized h / patchPx))
  else .ok ()

/-- Step 5 and 6: the payload. -/
def checkJpeg (declared : Nat) (jpeg : Bytes) : Except FrameFault Unit :=
  if jpeg.length ≠ declared then .error (.jpegLen declared jpeg.length)
  else if jpeg = [] then .error .emptyPayload
  else if jpeg.length > cfg.maxJpegBytes then
    .error (.payloadTooLarge jpeg.length cfg.maxJpegBytes)
  else if isJpeg jpeg = false then
    .error (.notJpeg (jpeg.getD 0 0) (jpeg.getD 1 0) (jpeg.getD 2 0))
  else
    match cfg.readDimensions jpeg with
    | .malformed e => .error (.malformedJpeg e)
    | .joinError e => .error (.joinError e)
    | .ok w h => checkDimensions cfg w h

/-- Steps 1 to 3: the header, and where the payload starts. -/
def locateHeader (bytes : Bytes) : Except FramingFault (InferHeader × Bytes) :=
  if bytes.length < 4 then .error (.short bytes.length)
  else
    let headerLen := Framing.beValue (bytes.take 4)
    if headerLen = 0 then .error .noHeader
    else if 4 + headerLen > bytes.length then .error (.pastEnd headerLen bytes.length)
    else
      match cfg.readHeader ((bytes.drop 4).take headerLen) with
      | .error e => .error (.badHeader e)
      | .ok header =>
        if header.frame_id = [] then .error .emptyFrameId
        else if Rust.len header.frame_id > 256 then
          .error (.longFrameId (Rust.len header.frame_id))
        else .ok (header, bytes.drop (4 + headerLen))

/-- `process_binary` -/
def processBinary (bytes : Bytes) : BinaryOutcome :=
  match locateHeader cfg bytes with
  | .error fault => .fatalFraming fault
  | .ok (header, jpeg) =>
    match compile templates cfg.nfc header.request with
    | .error e => .perFrame header.frame_id (.request e)
    | .ok (prompt, prompt_task) =>
      match checkJpeg cfg header.jpeg_len jpeg with
      | .error fault => .perFrame header.frame_id fault
      | .ok () => .pending { header, jpeg, prompt, prompt_task }

/-- `ws_route`: the largest message a WebSocket of the server takes. It is a `usize`, and the sum
    wraps in a release build. -/
def maxMessageSize : Nat := (cfg.maxJpegBytes + 64 * 1024) % 2 ^ 64

/-- A Binary message on its way to `process_binary`. One that is too large never gets there: it is an
    error of `ws_rx.next()`, on which `handle_ws` returns. -/
def receiveBinary (bytes : Bytes) : Option BinaryOutcome :=
  if bytes.length ≤ maxMessageSize cfg then some (processBinary cfg bytes) else none

theorem receiveBinary_of_le {bytes : Bytes} (h : bytes.length ≤ maxMessageSize cfg) :
    receiveBinary cfg bytes = some (processBinary cfg bytes) := if_pos h

/-- The id a Frame carries, if its header can be located. -/
def frameIdOf (bytes : Bytes) : Option Str :=
  match locateHeader cfg bytes with
  | .error _ => none
  | .ok (header, _) => some header.frame_id

/-- A rejected Frame is rejected under its own id. -/
theorem frameIdOf_perFrame {bytes : Bytes} {frame_id : Str} {fault : FrameFault}
    (h : processBinary cfg bytes = .perFrame frame_id fault) :
    frameIdOf cfg bytes = some frame_id := by
  rw [processBinary] at h
  rw [frameIdOf]
  cases hl : locateHeader cfg bytes with
  | error e => simp [hl] at h
  | ok p =>
    obtain ⟨header, jpeg⟩ := p
    simp only [hl] at h ⊢
    split at h
    · cases h; rfl
    · split at h
      · cases h; rfl
      · exact absurd h (by simp)

theorem locateHeader_frame_id {bytes : Bytes} {header : InferHeader} {jpeg : Bytes}
    (h : locateHeader cfg bytes = .ok (header, jpeg)) : header.frame_id ≠ [] := by
  unfold locateHeader at h
  obtain ⟨-, h⟩ := ite_error_eq_ok.mp h
  obtain ⟨-, h⟩ := ite_error_eq_ok.mp h
  obtain ⟨-, h⟩ := ite_error_eq_ok.mp h
  split at h
  · exact absurd h (by simp)
  obtain ⟨hne, h⟩ := ite_error_eq_ok.mp h
  obtain ⟨-, h⟩ := ite_error_ok_eq_ok.mp h
  obtain ⟨rfl, -⟩ := Prod.mk.inj h
  exact hne

/-- Of the payload's checks, those that the worker makes again. -/
theorem checkJpeg_ok {declared : Nat} {jpeg : Bytes} (h : checkJpeg cfg declared jpeg = .ok ()) :
    jpeg.length = declared ∧ jpeg ≠ [] ∧ isJpeg jpeg = true := by
  unfold checkJpeg at h
  obtain ⟨hlen, h⟩ := ite_error_eq_ok.mp h
  obtain ⟨hne, h⟩ := ite_error_eq_ok.mp h
  obtain ⟨-, h⟩ := ite_error_eq_ok.mp h
  obtain ⟨hjpeg, -⟩ := ite_error_eq_ok.mp h
  exact ⟨not_not.mp hlen, hne, Bool.eq_true_of_not_eq_false hjpeg⟩

/-- What is known of a Frame to forward, and so of what the worker is sent. -/
structure Forwardable (bytes : Bytes) (p : PendingFrame) : Prop where
  frame_id : frameIdOf cfg bytes = some p.header.frame_id
  frame_id_ne : p.header.frame_id ≠ []
  compiled : compile templates cfg.nfc p.header.request = .ok (p.prompt, p.prompt_task)
  jpeg_len : p.jpeg.length = p.header.jpeg_len
  jpeg_ne : p.jpeg ≠ []
  is_jpeg : isJpeg p.jpeg = true

theorem processBinary_pending {bytes : Bytes} {p : PendingFrame}
    (h : processBinary cfg bytes = .pending p) : Forwardable cfg bytes p := by
  rw [processBinary] at h
  cases hl : locateHeader cfg bytes with
  | error e => simp [hl] at h
  | ok q =>
    obtain ⟨header, jpeg⟩ := q
    simp only [hl] at h
    split at h
    · exact absurd h (by simp)
    rename_i prompt prompt_task hcompile
    split at h
    · exact absurd h (by simp)
    rename_i hjpeg
    obtain ⟨hlen, hne, his⟩ := checkJpeg_ok cfg hjpeg
    cases h
    exact ⟨by rw [frameIdOf, hl], locateHeader_frame_id cfg hl, hcompile, hlen, hne, his⟩

end ProcessBinary

end LocateAnything.Edge
