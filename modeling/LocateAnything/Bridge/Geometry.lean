import LocateAnything.Bridge.Exchange
import LocateAnything.Bridge.Prompt
import LocateAnything.Edge.Acceptance
import LocateAnything.Worker.Run

/-!
# What the edge lets through the worker takes

The rules on the header and on the dimensions exist more than once: in `process_binary`, in
`_infer` and at the head of `run`, in the gates of `run`, and in `plan_resize`. A Frame that
has passed the first passes the others (`acceptance_implies_acceptance`), whichever way PIL
turns the image.

The worker repeats the checks because its socket can be reached from inside the container, and
means them never to fire: a reply that comes out of one of them says that the frontend has
broken its contract. Whether they do fire is a question of arithmetic. The two sides write the
same bounds differently, and `plan_resize` works on what is left behind the gates, down to the
tokens of the rounded image. And the edge has read the dimensions with another decoder, so it
may see the sides in the other order; since no bound of the edge distinguishes them
(`checkDimensions_turned`), the order is of no consequence. That the two decoders agree up to
it is a hypothesis of the theorem, on the image that PIL has decoded.
-/

set_option autoImplicit false

namespace LocateAnything.Bridge

open Edge (Config PendingFrame FrameFault checkDimensions processBinary)
open Framing (Bytes)
open Worker

/-! ## The dimensions -/

/-- The other orientation of a complaint. -/
def turned : FrameFault → FrameFault
  | .tooSmall w h => .tooSmall h w
  | .tooLarge w h max => .tooLarge h w max
  | .tooManyPatches w h patches => .tooManyPatches h w patches
  | .tooManyPositions w h targetW targetH patchesW patchesH =>
    .tooManyPositions h w targetH targetW patchesH patchesW
  | fault => fault

/-- **The edge decides the same for both orientations.** -/
theorem checkDimensions_turned (cfg : Config) (w h : Nat) :
    checkDimensions cfg h w = (checkDimensions cfg w h).mapError turned := by
  unfold checkDimensions
  rw [Nat.mul_comm (h / Edge.patchPx)]
  by_cases hmin : w < Edge.minImageDim ∨ h < Edge.minImageDim
  · rw [if_pos hmin, if_pos hmin.symm]
    rfl
  rw [if_neg hmin, if_neg (fun hs => hmin (Or.symm hs))]
  by_cases hmax : w > cfg.maxImageDim ∨ h > cfg.maxImageDim
  · rw [if_pos hmax, if_pos hmax.symm]
    rfl
  rw [if_neg hmax, if_neg (fun hs => hmax (Or.symm hs))]
  by_cases hpatches : w / Edge.patchPx * (h / Edge.patchPx) > Edge.inTokenLimit
  · rw [if_pos hpatches, if_pos hpatches]
    rfl
  rw [if_neg hpatches, if_neg hpatches]
  by_cases hpositions : Edge.resized w / Edge.patchPx ≥ Edge.posEmbPatchCap ∨
      Edge.resized h / Edge.patchPx ≥ Edge.posEmbPatchCap
  · rw [if_pos hpositions, if_pos hpositions.symm]
    rfl
  · rw [if_neg hpositions, if_neg (fun hs => hpositions (Or.symm hs))]
    rfl

/-- What the edge's gates leave is within every bound of the worker's. The structure is the
    interface between the two sides: the edge's lemma ends in it, the worker's start from it.
    -/
structure Fits (w h : Nat) : Prop where
  pos_w : 0 < w
  pos_h : 0 < h
  patches : w / 14 * (h / 14) ≤ 25600
  positions_w : gridCeil w / 14 < 512
  positions_h : gridCeil h / 14 < 512

theorem Fits.turned {w h : Nat} (hf : Fits w h) : Fits h w where
  pos_w := hf.pos_h
  pos_h := hf.pos_w
  patches := by rw [Nat.mul_comm]; exact hf.patches
  positions_w := hf.positions_h
  positions_h := hf.positions_w

theorem Fits.of_dimensionsOk {cfg : Config} {w h : Nat} (hok : Edge.DimensionsOk cfg w h) :
    Fits w h where
  pos_w := Nat.lt_of_lt_of_le (by decide) hok.min_w
  pos_h := Nat.lt_of_lt_of_le (by decide) hok.min_h
  patches := hok.patches
  positions_w := hok.positions_w
  positions_h := hok.positions_h

/-- The plan of an image that fits. Its target is the grid's least rectangle over the image,
    so nothing in it is downscaled. -/
def planOf (A : Arithmetic) (w h : Nat) : ImageResize where
  src_w := w
  src_h := h
  dst_w := gridCeil w
  dst_h := gridCeil h
  n_patches_w := gridCeil w / 14
  n_patches_h := gridCeil h / 14
  n_llm_tokens := gridCeil w / 28 * (gridCeil h / 28)
  scale := A.quotient (gridCeil w) w

theorem Fits.gates {w h : Nat} (hf : Fits w h) : dimensionGates w h = .ok () :=
  dimensionGates_eq_ok_iff.mpr ⟨hf.patches, hf.positions_w, hf.positions_h⟩

theorem Fits.plan {w h : Nat} (hf : Fits w h) (A : Arithmetic) :
    planResize A w h = .ok (planOf A w h) :=
  planResize_of_fits A hf.pos_w hf.pos_h hf.patches hf.positions_w hf.positions_h

/-! ## The head of `run` -/

/-- The checks on the arguments, `_infer`'s and `run`'s, and the reading of the prompt. Some
    are made twice, as the calibration calls `run` without `_infer`. -/
structure HeadOk (call : EngineCall) : Prop where
  prompt_ne : call.prompt ≠ []
  prompt_le : call.prompt.length ≤ 16384
  mode : call.mode ∈ modes
  jpeg_ne : call.jpeg ≠ []
  soi : call.jpeg.take 3 = [0xFF, 0xD8, 0xFF]
  task : ∃ task, canonicalTask call.prompt_task = some task ∧
    ∃ label, pointLabel call.prompt task = .ok label

theorem pointLabel_render {nfc : Str → Str} {r : Edge.PromptRequest}
    (h : Edge.Accepted Edge.templates nfc r) :
    ∃ label, pointLabel (Edge.render Edge.templates r) r.kind = .ok label := by
  cases r with
  | point phrase =>
    refine ⟨some phrase, ?_⟩
    simp only [Edge.PromptRequest.kind, pointLabel]
    rw [pointPhrase_render h]
    rfl
  | _ => exact ⟨none, rfl⟩

theorem headOk_of_pending {cfg : Config} {m : Bytes} {p : PendingFrame}
    (hp : processBinary cfg m = .pending p) : HeadOk (jobOf p).call := by
  obtain ⟨-, haccepts, hcompile⟩ := Edge.located_of_pending hp
  obtain ⟨hacc, hrender, htask⟩ := (Edge.compile_eq_ok_iff _ _).mp hcompile
  refine ⟨?_, ?_, wireName_mem_modes _, haccepts.jpeg_ne, haccepts.soi, p.header.request.kind,
    ?_, ?_⟩
  · show p.prompt ≠ []
    rw [hrender]
    exact render_ne_nil _
  · show p.prompt.length ≤ 16384
    rw [hrender]
    exact hacc.length_le
  · show canonicalTask (.str p.prompt_task) = _
    rw [htask]
    exact TemplateKind.ofWireName?_wireName _
  · show ∃ label, pointLabel p.prompt _ = _
    rw [hrender]
    exact pointLabel_render hacc

/-- **Edge acceptance implies worker acceptance.** What `process_binary` returns as pending the
    worker routes to the engine with every check on the header passed; and for the dimensions the
    edge has read, in either orientation, the gates pass, `plan_resize` has a plan that downscales
    nothing, and `run` accepts the image PIL has decoded. -/
theorem acceptance_implies_acceptance (cfg : Config) (m : Bytes) (p : PendingFrame)
    (hp : processBinary cfg m = .pending p) :
    (∀ (py : Python) (header : Bytes), py.loads header = .ok (headerOf p) →
      route py header p.jpeg = .infer (jobOf p)) ∧
    HeadOk (jobOf p).call ∧
    (∃ w h, cfg.readDimensions p.jpeg = .ok w h ∧
      ∀ w' h', (w' = w ∧ h' = h) ∨ (w' = h ∧ h' = w) →
        dimensionGates w' h' = .ok () ∧
        (∀ A, planResize A w' h' = .ok (planOf A w' h')) ∧
        IsLeast {s | 28 ∣ s ∧ w' ≤ s} (gridCeil w') ∧
        IsLeast {s | 28 ∣ s ∧ h' ≤ s} (gridCeil h') ∧
        ∀ (Image Inputs : Type) (eng : Engine Image Inputs) (image : Image),
          decodeImage eng.toPil p.jpeg = .ok image → eng.size image = (w', h') →
          ∃ task, accept eng (jobOf p).call = .ok (image, task, planOf .float w' h')) ∧
    ∀ w h, checkDimensions cfg h w = (checkDimensions cfg w h).mapError turned := by
  have hhead := headOk_of_pending hp
  obtain ⟨-, haccepts, -⟩ := Edge.located_of_pending hp
  obtain ⟨w, h, hdims, hok⟩ := haccepts.dimensions
  refine ⟨fun py header hload => route_forwarded (Edge.processBinary_pending cfg hp) hload, hhead,
    ⟨w, h, hdims, fun w' h' hsides => ?_⟩, checkDimensions_turned cfg⟩
  -- the gates do not tell the two sides apart
  have hfits : Fits w' h' := by
    rcases hsides with ⟨rfl, rfl⟩ | ⟨rfl, rfl⟩
    · exact Fits.of_dimensionsOk hok
    · exact (Fits.of_dimensionsOk hok).turned
  refine ⟨hfits.gates, hfits.plan, isLeast_gridCeil w', isLeast_gridCeil h',
    fun Image Inputs eng image hdecode hsize => ?_⟩
  obtain ⟨task, htask, -⟩ := hhead.task
  refine ⟨task, accept_eq_ok_iff.mpr ⟨hhead.prompt_ne, htask, hhead.jpeg_ne, hdecode, ?_, ?_⟩⟩
  · rw [hsize]
    exact hfits.gates
  · rw [hsize]
    exact hfits.plan .float

/-- A Frame of 64 by 64 pixels, as it is pending. -/
def samplePending : PendingFrame where
  header := Edge.sampleHeader "f-1".toList Edge.sampleJpeg.length
  jpeg := Edge.sampleJpeg
  prompt := Edge.templates.scene_text_exact
  prompt_task := "scene_text".toList

theorem processBinary_sample :
    processBinary (Edge.sampleConfig "f-1".toList)
      (Framing.encode (Edge.sampleText "f-1".toList Edge.sampleJpeg.length) ++ Edge.sampleJpeg) =
      .pending samplePending := by
  have hlocated := Edge.locateHeader_of_frameIdOk Edge.sampleJpeg
    (Edge.sampleConfig_readHeader "f-1".toList) (by decide +kernel) (by decide +kernel)
    (by decide +kernel)
  have hok : Edge.DimensionsOk (Edge.sampleConfig "f-1".toList) 64 64 :=
    ⟨by decide, by decide, by decide, by decide, by decide, by decide, by decide⟩
  obtain ⟨prompt, task, hcompile, hpending⟩ := Edge.processBinary_of_accepts hlocated
    ⟨⟨_, rfl⟩, rfl, by decide, by decide, rfl, 64, 64, Edge.sampleConfig_readDimensions _, hok⟩
  cases hcompile
  exact hpending

theorem acceptance_implies_acceptance_sample :
    ∃ task, accept (sampleEngine (64, 64) []) (jobOf samplePending).call =
      .ok ((), task, planOf .float 64 64) := by
  obtain ⟨-, -, ⟨w, h, hdims, hsides⟩, -⟩ :=
    acceptance_implies_acceptance _ _ samplePending processBinary_sample
  rw [show samplePending.jpeg = Edge.sampleJpeg from rfl, Edge.sampleConfig_readDimensions] at hdims
  cases hdims
  exact (hsides 64 64 (.inl ⟨rfl, rfl⟩)).2.2.2.2 Unit Unit (sampleEngine (64, 64) []) () rfl rfl

end LocateAnything.Bridge
