import LocateAnything.Edge.Acceptance
import LocateAnything.Edge.Orientation
import LocateAnything.Lib.Checked

/-!
# The edge does not panic on what a client sends

`process_binary` and what it calls of `jpeg.rs` again, with every index, slice, addition and
multiplication as the operation of Rust that panics where it fails, and the walk over the
marker segments as a loop that might not end. Whatever the message, they come to what the
functions of `Edge.Ws` and `Edge.Jpeg` say (`edge_total`): with `panic = "abort"`, a panic
would end every connection, and an endless loop would hold one of the blocking threads for
good.

## Why the functions are written twice

The plain functions read past the end as 0 or as the empty list and count in unbounded
numbers, which is what every other proof wants: an orientation should be a matter of what the
bytes say. Used alone they would hide the very thing this file is about. So the functions are
transcribed a second time, statement by statement, over `Lib/Checked`, where an operation can
fail; and each has one lemma, under the same name with `_eq`, by which it succeeds and agrees
with the plain one. Everything proved of the plain functions then holds of these.

The only hypothesis is that a message is shorter than 2^63 bytes, as every buffer of Rust is:
the offsets of the walk are then sums that cannot wrap. For the loop it is the position that
counts. It increases in every round and stays in the buffer (`nextSegment_again`), so as much
fuel as there are bytes is enough.
-/

set_option autoImplicit false

namespace LocateAnything.Edge.Panicking

open Checked
open Framing (Bytes beValue)
open Fields

/-! ## `tiff_orientation` -/

/-- The closure `u16_at`. The end of the range is an addition like any other, and the two
    bytes are indexed once the range is known to be there. -/
def u16At (o : Endian) (tiff : Bytes) (off : Nat) : Exec (Option Nat) := do
  match get? tiff off (← add off 2) with
  | some b => return some (o.value [← index b 0, ← index b 1])
  | none => return none

/-- The closure `u32_at`. -/
def u32At (o : Endian) (tiff : Bytes) (off : Nat) : Exec (Option Nat) := do
  match get? tiff off (← add off 4) with
  | some b => return some (o.value [← index b 0, ← index b 1, ← index b 2, ← index b 3])
  | none => return none

/-- The loop over the entries of IFD0. -/
def orientationFrom (o : Endian) (tiff : Bytes) : (n e : Nat) → Exec (Option Nat)
  | 0, _ => return none
  | n + 1, e =>
    andThen (u16At o tiff e) fun tag => do
      if tag = orientationTag then u16At o tiff (← add e 8)
      else
        match checkedAdd e 12 with
        | some e => orientationFrom o tiff n e
        | none => return none

/-- `tiff_orientation` -/
def tiffOrientation (tiff : Bytes) : Exec (Option Nat) := do
  if tiff.length < 8 then return none
  else
    match byteOrder? (← slice tiff 0 2) with
    | none => return none
    | some o =>
      andThen (u16At o tiff 2) fun magic =>
        if magic ≠ 0x002A then return none
        else
          andThen (u32At o tiff 4) fun ifd0 =>
            andThen (u16At o tiff ifd0) fun n_entries =>
              match checkedAdd ifd0 2 with
              | some e => orientationFrom o tiff n_entries e
              | none => return none

/-! ## `exif_orientation` -/

/-- The body of the loop over the marker segments, in the order of the source: the length
    field is read only once four bytes are known to be left, the payload is sliced only once
    the segment is known to fit. -/
def segmentStep (bytes : Bytes) (i : Nat) : Exec (Next Nat (Option Nat)) := do
  if (← add i 4) > bytes.length then return .done none
  else if (← index bytes i) ≠ 0xFF then return .done none
  else
    let marker ← index bytes (← add i 1)
    if marker = 0xDA ∨ marker = 0xD9 then return .done none
    else
      let seg_len := Endian.big.value [← index bytes (← add i 2), ← index bytes (← add i 3)]
      if seg_len < 2 then return .done none
      else
        let payload_start ← add i 4
        let segment_end ← add (← add i 2) seg_len
        if segment_end > bytes.length then return .done none
        else if marker ≠ 0xE1 then return .again segment_end
        else
          let payload ← slice bytes payload_start segment_end
          if payload.length < 6 then return .again segment_end
          else if (← slice payload 0 6) ≠ exifHeader then return .again segment_end
          else return .done (← tiffOrientation (← slice payload 6 payload.length))

/-- `exif_orientation`. The outer `Option` is the fuel's: `none` means that the loop has not
    ended yet. -/
def exifOrientation (fuel : Nat) (bytes : Bytes) : Exec (Option (Option Nat)) := do
  if bytes.length < 2 then return some none
  else if (← index bytes 0) ≠ 0xFF then return some none
  else if (← index bytes 1) ≠ 0xD8 then return some none
  else loop (segmentStep bytes) fuel 2

/-- `read_dimensions_blocking` -/
def readDimensionsBlocking (d : Decoder) (fuel : Nat) (bytes : Bytes) :
    Exec (Option (Except Str (UInt16 × UInt16))) :=
  match d.readInfo bytes with
  | .error e => return some (.error ("JPEG header parse: ".toList ++ e))
  | .ok () =>
    match d.info bytes with
    | none => return some (.error "JPEG decoder yielded no info".toList)
    | some (width, height) =>
      andThen (exifOrientation fuel bytes) fun o =>
        return some (if swapsSides o then .ok (height, width) else .ok (width, height))

/-! ## `process_binary` -/

/-- `is_jpeg` -/
def isJpeg (b : Bytes) : Exec Bool := do
  if b.length < 3 then return false
  else if (← index b 0) ≠ 0xFF then return false
  else if (← index b 1) ≠ 0xD8 then return false
  else return decide ((← index b 2) = 0xFF)

/-- `u64::div_ceil`, as the standard library has it. It cannot overflow, unlike the usual
    formula with an addition. -/
def divCeil (a b : Nat) : Nat := if a % b > 0 then a / b + 1 else a / b

section
variable (cfg : Config)

/-- Step 6: the dimensions of the image. The products are of `u64`s made from `u16`s. -/
def checkDimensions (w h : Nat) : Exec (Except FrameFault Unit) := do
  if w < minImageDim ∨ h < minImageDim then return .error (.tooSmall w h)
  else if w > cfg.maxImageDim ∨ h > cfg.maxImageDim then
    return .error (.tooLarge w h cfg.maxImageDim)
  else
    let n_patches ← mul (w / patchPx) (h / patchPx)
    if n_patches > inTokenLimit then return .error (.tooManyPatches w h n_patches)
    else
      let target_w ← mul (divCeil w llmTokenPx) llmTokenPx
      let target_h ← mul (divCeil h llmTokenPx) llmTokenPx
      let w_patches_post := target_w / patchPx
      let h_patches_post := target_h / patchPx
      if w_patches_post ≥ posEmbPatchCap ∨ h_patches_post ≥ posEmbPatchCap then
        return .error (.tooManyPositions w h target_w target_h w_patches_post h_patches_post)
      else return .ok ()

/-- Step 5 and 6: the payload. `join` is what the runtime may report of the blocking task; the
    task runs whether or not its result arrives. -/
def checkJpeg (d : Decoder) (join : Bytes → Option Str) (fuel declared : Nat) (jpeg : Bytes) :
    Exec (Option (Except FrameFault Unit)) := do
  if jpeg.length ≠ declared then return some (.error (.jpegLen declared jpeg.length))
  else if jpeg = [] then return some (.error .emptyPayload)
  else if jpeg.length > cfg.maxJpegBytes then
    return some (.error (.payloadTooLarge jpeg.length cfg.maxJpegBytes))
  else if (← isJpeg jpeg) = false then
    return some (.error (.notJpeg (jpeg.getD 0 0) (jpeg.getD 1 0) (jpeg.getD 2 0)))
  else
    andThen (readDimensionsBlocking d fuel jpeg) fun dims =>
      match join jpeg, dims with
      | some e, _ => return some (.error (.joinError e))
      | none, .error e => return some (.error (.malformedJpeg e))
      | none, .ok (w, h) => some <$> checkDimensions cfg w.toNat h.toNat

/-- `process_binary` -/
def processBinary (d : Decoder) (join : Bytes → Option Str) (fuel : Nat) (bytes : Bytes) :
    Exec (Option BinaryOutcome) := do
  if bytes.length < 4 then return some (.fatalFraming (.short bytes.length))
  else
    let header_len := beValue (← slice bytes 0 4)
    if header_len = 0 then return some (.fatalFraming .noHeader)
    else if (← add 4 header_len) > bytes.length then
      return some (.fatalFraming (.pastEnd header_len bytes.length))
    else
      match cfg.readHeader (← slice bytes 4 (← add 4 header_len)) with
      | .error e => return some (.fatalFraming (.badHeader e))
      | .ok header =>
        if header.frame_id = [] then return some (.fatalFraming .emptyFrameId)
        else if Rust.len header.frame_id > 256 then
          return some (.fatalFraming (.longFrameId (Rust.len header.frame_id)))
        else
          match compile templates cfg.nfc header.request with
          | .error e => return some (.perFrame header.frame_id (.request e))
          | .ok (prompt, prompt_task) =>
            let jpeg ← slice bytes (← add 4 header_len) bytes.length
            andThen (checkJpeg cfg d join fuel header.jpeg_len jpeg) fun
              | .error fault => return some (.perFrame header.frame_id fault)
              | .ok () => return some (.pending { header, jpeg, prompt, prompt_task })

end

/-! ## What they come to -/

theorem get?_add (s : Bytes) (off len : Nat) : get? s off (off + len) = slice? s off len := by
  simp [get?, slice?]

/-- The hypothesis is about the sum and not about the buffer, since the offsets come out of
    the file: a TIFF block may name any. -/
theorem u16At_eq (o : Endian) (tiff : Bytes) {off : Nat} (h : off + 2 < 2 ^ 64) :
    u16At o tiff off = .ok (o.at? 2 tiff off) := by
  rw [u16At, add_eq_ok h, Endian.at?]
  simp only [bind, Except.bind, get?_add]
  cases hs : slice? tiff off 2 with
  | none => rfl
  | some b =>
    obtain ⟨x, y, rfl⟩ := List.length_eq_two.mp (slice?_eq_some hs).2
    rfl

theorem u32At_eq (o : Endian) (tiff : Bytes) {off : Nat} (h : off + 4 < 2 ^ 64) :
    u32At o tiff off = .ok (o.at? 4 tiff off) := by
  rw [u32At, add_eq_ok h, Endian.at?]
  simp only [bind, Except.bind, get?_add]
  cases hs : slice? tiff off 4 with
  | none => rfl
  | some b =>
    obtain ⟨x, y, z, w, rfl⟩ := List.length_eq_four.mp (slice?_eq_some hs).2
    rfl

/-- The walk over the entries uses `checked_add`, and so stops where a sum would wrap. -/
theorem checkedAdd_eq_some {a b c : Nat} (h : checkedAdd a b = some c) :
    c = a + b ∧ a + b < 2 ^ 64 := by
  unfold checkedAdd at h
  split at h
  · exact ⟨(Option.some.inj h).symm, ‹_›⟩
  · exact absurd h (by simp)

/-- An offset that is too large for the buffer fails both reads alike, so nothing is asked of
    the entries but that the next tag can be addressed. -/
theorem orientationFrom_eq (o : Endian) {tiff : Bytes} (hlen : tiff.length < 2 ^ 63) (n : Nat)
    {e : Nat} (he : e + 2 < 2 ^ 64) :
    orientationFrom o tiff n e = .ok (Edge.orientationFrom o tiff n e) := by
  induction n generalizing e with
  | zero => rfl
  | succ n ih =>
    refine andThen_eq (u16At_eq o tiff he) fun tag htag => ?_
    -- the tag was read, so the entry begins inside the block
    obtain ⟨hin, -⟩ := Endian.at?_eq_some htag
    by_cases ht : tag = orientationTag
    · rw [if_pos ht, if_pos ht, add_eq_ok (by omega)]
      exact u16At_eq o tiff (by omega)
    · rw [if_neg ht, if_neg ht]
      cases hadd : checkedAdd e 12 with
      | none => rfl
      | some e' =>
        obtain ⟨rfl, -⟩ := checkedAdd_eq_some hadd
        exact ih (by omega)

theorem tiffOrientation_eq {tiff : Bytes} (hlen : tiff.length < 2 ^ 63) :
    tiffOrientation tiff = .ok (Edge.tiffOrientation tiff) := by
  unfold tiffOrientation Edge.tiffOrientation
  by_cases hshort : tiff.length < 8
  · rw [if_pos hshort, if_pos hshort]
    rfl
  rw [if_neg hshort, if_neg hshort, slice_from_zero (by omega)]
  simp only [bind, Except.bind]
  cases byteOrder? (tiff.take 2) with
  | none => rfl
  | some o =>
    refine andThen_eq (u16At_eq o tiff (by omega)) fun magic _ => ?_
    by_cases hmagic : magic ≠ 0x002A
    · rw [if_pos hmagic, if_pos hmagic]
      rfl
    rw [if_neg hmagic, if_neg hmagic]
    refine andThen_eq (u32At_eq o tiff (by omega)) fun ifd0 hifd0 => ?_
    obtain ⟨-, hifd0⟩ := Endian.at?_eq_some hifd0
    refine andThen_eq (u16At_eq o tiff (by omega)) fun n_entries hn => ?_
    obtain ⟨hin, -⟩ := Endian.at?_eq_some hn
    cases hadd : checkedAdd ifd0 2 with
    | none => rfl
    | some e =>
      obtain ⟨rfl, -⟩ := checkedAdd_eq_some hadd
      exact orientationFrom_eq o hlen n_entries (by omega)

theorem take_two_drop {bytes : Bytes} {i : Nat} (h : i + 1 < bytes.length) :
    (bytes.drop i).take 2 = [bytes.getD i 0, bytes.getD (i + 1) 0] := by
  have h₀ : i < bytes.length := by omega
  rw [List.drop_eq_getElem_cons h₀, List.drop_eq_getElem_cons h, List.getD_eq_getElem?_getD,
    List.getD_eq_getElem?_getD, List.getElem?_eq_getElem h₀, List.getElem?_eq_getElem h]
  rfl

/-- What a round of the walk comes to, as a function that cannot fail: the bridge between the
    checked round and the plain recursion, so that either can be unfolded without the other.
    -/
def nextSegment (bytes : Bytes) (i : Nat) : Next Nat (Option Nat) :=
  if bytes.length < i + 4 ∨ bytes.getD i 0 ≠ 0xFF then .done none
  else if bytes.getD (i + 1) 0 = 0xDA ∨ bytes.getD (i + 1) 0 = 0xD9 then .done none
  else
    let seg_len := Endian.big.value ((bytes.drop (i + 2)).take 2)
    if seg_len < 2 then .done none
    else if bytes.length < i + 2 + seg_len then .done none
    else
      let payload := (bytes.drop (i + 4)).take (i + 2 + seg_len - (i + 4))
      if bytes.getD (i + 1) 0 = 0xE1 ∧ payload.take 6 = exifHeader then
        .done (Edge.tiffOrientation (payload.drop 6))
      else .again (i + 2 + seg_len)

theorem segmentWalk_eq_next (bytes : Bytes) (i : Nat) :
    segmentWalk bytes i =
      match nextSegment bytes i with
      | .done r => r
      | .again j => segmentWalk bytes j := by
  rw [segmentWalk.eq_1]
  unfold nextSegment
  dsimp only
  split_ifs <;> rfl

/-- The position increases and stays in the buffer. The first is why the loop ends, the second
    is why the next round does not panic. -/
theorem nextSegment_again {bytes : Bytes} {i j : Nat} (h : nextSegment bytes i = .again j) :
    i < j ∧ j ≤ bytes.length := by
  unfold nextSegment at h
  dsimp only at h
  split_ifs at h with hfront hstop hlen hend hexif
  obtain rfl := Next.again.inj h
  omega

/-- The end of a round, where an APP1 segment has been found. -/
theorem exifPayload_eq {payload : Bytes} (hlen : payload.length < 2 ^ 63) (segment_end : Nat) :
    (do
      if payload.length < 6 then return Next.again segment_end
      else if (← slice payload 0 6) ≠ exifHeader then return .again segment_end
      else return .done (← tiffOrientation (← slice payload 6 payload.length)))
      = .ok (if payload.take 6 = exifHeader then .done (Edge.tiffOrientation (payload.drop 6))
          else .again segment_end) := by
  by_cases hsix : payload.length < 6
  · have hexif : payload.take 6 ≠ exifHeader := fun h => by
      have := congrArg List.length h
      simp only [List.length_take, exifHeader, List.length_cons, List.length_nil] at this
      omega
    rw [if_pos hsix, if_neg hexif]
    rfl
  · rw [if_neg hsix, slice_from_zero (Nat.not_lt.mp hsix), slice_to_end (Nat.not_lt.mp hsix)]
    simp only [bind, Except.bind]
    by_cases hexif : payload.take 6 = exifHeader
    · rw [if_neg (not_not.mpr hexif), if_pos hexif,
        tiffOrientation_eq (by rw [List.length_drop]; omega)]
      rfl
    · rw [if_pos hexif, if_neg hexif]
      rfl

/-- **A round of the walk does not panic.** Every index in it is behind a comparison that
    covers it. -/
theorem segmentStep_eq {bytes : Bytes} (hlen : bytes.length < 2 ^ 63) {i : Nat}
    (hi : i ≤ bytes.length) : segmentStep bytes i = .ok (nextSegment bytes i) := by
  unfold segmentStep nextSegment
  rw [add_eq_ok (by omega)]
  simp only [bind, Except.bind]
  by_cases hshort : bytes.length < i + 4
  · rw [if_pos hshort, if_pos (.inl hshort)]
    rfl
  rw [if_neg hshort, index_getD (by omega) 0]
  dsimp only
  by_cases hff : bytes.getD i 0 ≠ 0xFF
  · rw [if_pos hff, if_pos (.inr hff)]
    rfl
  rw [if_neg hff, if_neg (not_or.mpr ⟨hshort, hff⟩), add_eq_ok (by omega), add_eq_ok (by omega),
    add_eq_ok (by omega)]
  dsimp only
  rw [index_getD (by omega) 0, index_getD (by omega) 0, index_getD (by omega) 0,
    take_two_drop (by omega)]
  dsimp only
  by_cases hstop : bytes.getD (i + 1) 0 = 0xDA ∨ bytes.getD (i + 1) 0 = 0xD9
  · rw [if_pos hstop, if_pos hstop]
    rfl
  rw [if_neg hstop, if_neg hstop]
  -- the declared length has two bytes
  have hvalue := Endian.value_lt .big [bytes.getD (i + 2) 0, bytes.getD (i + 3) 0]
  generalize Endian.big.value [bytes.getD (i + 2) 0, bytes.getD (i + 3) 0] = seg_len at hvalue ⊢
  by_cases hsmall : seg_len < 2
  · rw [if_pos hsmall, if_pos hsmall]
    rfl
  rw [if_neg hsmall, if_neg hsmall, add_eq_ok (by simp at hvalue; omega)]
  dsimp only
  by_cases hend : bytes.length < i + 2 + seg_len
  · rw [if_pos hend, if_pos hend]
    rfl
  rw [if_neg hend, if_neg hend]
  by_cases hmarker : bytes.getD (i + 1) 0 = 0xE1
  · have hpayload : ((bytes.drop (i + 4)).take (i + 2 + seg_len - (i + 4))).length < 2 ^ 63 := by
      rw [List.length_take, List.length_drop]
      omega
    rw [if_neg (not_not.mpr hmarker), slice_eq_ok (by omega) (by omega)]
    simp only [hmarker, true_and]
    exact exifPayload_eq hpayload _
  · rw [if_pos hmarker, if_neg fun h => hmarker h.1]
    rfl

/-- With as much fuel as there are bytes the walk ends. -/
theorem exifOrientation_eq {bytes : Bytes} (hlen : bytes.length < 2 ^ 63) {fuel : Nat}
    (hfuel : bytes.length ≤ fuel) :
    exifOrientation fuel bytes = .ok (some (Edge.exifOrientation bytes)) := by
  unfold exifOrientation Edge.exifOrientation
  match bytes, hlen, hfuel with
  | [], _, _ => rfl
  | [_], _, _ => simp [pure, Except.pure]
  | a :: b :: t, hlen, hfuel =>
    have hloop : loop (segmentStep (a :: b :: t)) fuel 2 =
        .ok (some (segmentWalk (a :: b :: t) 2)) := by
      refine loop_eq (s := 2) (fun i => i ≤ (a :: b :: t).length)
        (fun i => (a :: b :: t).length - i) (fun i hi => ?_) (by simp) ?_
      · rw [segmentStep_eq hlen hi, segmentWalk_eq_next (a :: b :: t) i]
        cases hnext : nextSegment (a :: b :: t) i with
        | done r => exact .inl rfl
        | again j =>
          obtain ⟨hlt, hle⟩ := nextSegment_again hnext
          exact .inr ⟨j, rfl, hle, by omega, rfl⟩
      · simp only [List.length_cons] at hfuel ⊢
        omega
    by_cases ha : a = 0xFF
    · by_cases hb : b = 0xD8
      · subst ha hb
        exact hloop
      · simp [index, ha, hb, bind, Except.bind, pure, Except.pure]
    · simp [index, ha, bind, Except.bind, pure, Except.pure]

theorem readDimensionsBlocking_eq (d : Decoder) {bytes : Bytes} (hlen : bytes.length < 2 ^ 63)
    {fuel : Nat} (hfuel : bytes.length ≤ fuel) :
    readDimensionsBlocking d fuel bytes = .ok (some (Edge.readDimensionsBlocking d bytes)) := by
  unfold readDimensionsBlocking Edge.readDimensionsBlocking
  cases d.readInfo bytes with
  | error e => rfl
  | ok _ =>
    cases d.info bytes with
    | none => rfl
    | some p =>
      dsimp only
      rw [exifOrientation_eq hlen hfuel]
      rfl

theorem isJpeg_eq (b : Bytes) : isJpeg b = .ok (Edge.isJpeg b) := by
  unfold isJpeg Edge.isJpeg
  match b with
  | [] => rfl
  | [_] | [_, _] => simp [pure, Except.pure]
  | x :: y :: z :: t =>
    by_cases hx : x = 0xFF
    · by_cases hy : y = 0xD8
      · simp [index, hx, hy, bind, Except.bind, pure, Except.pure]
      · simp [index, hx, hy, bind, Except.bind, pure, Except.pure]
    · simp [index, hx, bind, Except.bind, pure, Except.pure]

/-- The two ways to round up to a multiple agree, which is where the edge's arithmetic meets
    the plain model's. -/
theorem divCeil_mul (dim : Nat) : divCeil dim llmTokenPx * llmTokenPx = resized dim := by
  unfold divCeil resized llmTokenPx
  split <;> omega

/-- The sides are `u16`s, so no product reaches 2^64. -/
theorem checkDimensions_eq (cfg : Config) (w h : UInt16) :
    checkDimensions cfg w.toNat h.toNat = .ok (Edge.checkDimensions cfg w.toNat h.toNat) := by
  have hw : w.toNat < 2 ^ 16 := w.toNat_lt
  have hh : h.toNat < 2 ^ 16 := h.toNat_lt
  -- the sides have two bytes
  have hpatches : w.toNat / patchPx * (h.toNat / patchPx) < 2 ^ 64 := by
    calc w.toNat / patchPx * (h.toNat / patchPx)
        ≤ 2 ^ 16 * 2 ^ 16 := Nat.mul_le_mul ((Nat.div_le_self ..).trans hw.le)
          ((Nat.div_le_self ..).trans hh.le)
      _ < 2 ^ 64 := by norm_num
  have hresized : ∀ dim < 2 ^ 16, divCeil dim llmTokenPx * llmTokenPx < 2 ^ 64 := by
    intro dim hdim
    rw [divCeil_mul, resized, llmTokenPx]
    omega
  unfold checkDimensions Edge.checkDimensions
  split
  · rfl
  split
  · rfl
  rw [mul_eq_ok hpatches]
  simp only [bind, Except.bind]
  split
  · rfl
  rw [mul_eq_ok (hresized _ hw), mul_eq_ok (hresized _ hh)]
  simp only [divCeil_mul]
  split <;> rfl

section
variable (cfg : Config) (d : Decoder) (join : Bytes → Option Str)

theorem checkJpeg_eq {jpeg : Bytes} (hlen : jpeg.length < 2 ^ 63) {fuel : Nat}
    (hfuel : jpeg.length ≤ fuel) (declared : Nat) :
    checkJpeg cfg d join fuel declared jpeg = .ok (some
      (Edge.checkJpeg { cfg with readDimensions := dimensionsOf d join } declared jpeg)) := by
  unfold checkJpeg Edge.checkJpeg
  split
  · rfl
  split
  · rfl
  split
  · rfl
  rw [isJpeg_eq]
  simp only [bind, Except.bind]
  split
  · rfl
  rw [readDimensionsBlocking_eq d hlen hfuel]
  dsimp only [dimensionsOf]
  cases join jpeg with
  | some e => rfl
  | none =>
    cases Edge.readDimensionsBlocking d jpeg with
    | error e => rfl
    | ok p => exact congrArg (Except.map some) (checkDimensions_eq cfg p.1 p.2)

theorem processBinary_eq {bytes : Bytes} (hlen : bytes.length < 2 ^ 63) {fuel : Nat}
    (hfuel : bytes.length ≤ fuel) :
    processBinary cfg d join fuel bytes = .ok (some
      (Edge.processBinary { cfg with readDimensions := dimensionsOf d join } bytes)) := by
  unfold processBinary Edge.processBinary locateHeader
  by_cases h4 : bytes.length < 4
  · rw [if_pos h4, if_pos h4]
    rfl
  have hprefix : beValue (bytes.take 4) < 2 ^ 32 :=
    Framing.beValue_lt (List.length_take_of_le (by omega))
  rw [if_neg h4, if_neg h4, slice_from_zero (by omega)]
  simp only [bind, Except.bind]
  by_cases h0 : beValue (bytes.take 4) = 0
  · rw [if_pos h0, if_pos h0]
    rfl
  rw [if_neg h0, if_neg h0, add_eq_ok (by omega)]
  dsimp only
  by_cases hend : 4 + beValue (bytes.take 4) > bytes.length
  · rw [if_pos hend, if_pos hend]
    rfl
  rw [if_neg hend, if_neg hend, slice_eq_ok (by omega) (by omega), Nat.add_sub_cancel_left]
  dsimp only
  cases cfg.readHeader ((bytes.drop 4).take (beValue (bytes.take 4))) with
  | error e => rfl
  | ok header =>
    dsimp only
    by_cases hid : header.frame_id = []
    · rw [if_pos hid, if_pos hid]
      rfl
    rw [if_neg hid, if_neg hid]
    by_cases hlong : LocateAnything.Rust.len header.frame_id > 256
    · rw [if_pos hlong, if_pos hlong]
      rfl
    rw [if_neg hlong, if_neg hlong]
    dsimp only
    cases compile templates cfg.nfc header.request with
    | error e => rfl
    | ok c =>
      dsimp only
      rw [slice_to_end (by omega)]
      dsimp only
      rw [checkJpeg_eq cfg d join (by rw [List.length_drop]; omega)
        (by rw [List.length_drop]; omega)]
      cases Edge.checkJpeg { cfg with readDimensions := dimensionsOf d join } header.jpeg_len
        (bytes.drop (4 + beValue (bytes.take 4))) with
      | error fault => rfl
      | ok _ => rfl

/-- **No message makes the edge panic or go round for ever**: with as much fuel as the message has
    bytes it comes to its outcome, and each round of the walk ends it or takes it further on in the
    buffer. -/
theorem edge_total {bytes : Bytes} (hlen : bytes.length < 2 ^ 63) :
    (∀ fuel, bytes.length ≤ fuel →
      processBinary cfg d join fuel bytes = .ok (some
        (Edge.processBinary { cfg with readDimensions := dimensionsOf d join } bytes)) ∧
      exifOrientation fuel bytes = .ok (some (Edge.exifOrientation bytes))) ∧
    tiffOrientation bytes = .ok (Edge.tiffOrientation bytes) ∧
    ∀ i ≤ bytes.length, ∃ r, segmentStep bytes i = .ok r ∧
      ∀ j, r = .again j → i < j ∧ j ≤ bytes.length := by
  refine ⟨fun fuel hfuel => ⟨processBinary_eq cfg d join hlen hfuel, exifOrientation_eq hlen hfuel⟩,
    tiffOrientation_eq hlen, fun i hi => ⟨_, segmentStep_eq hlen hi, fun j hj => ?_⟩⟩
  exact nextSegment_again hj

end

theorem edge_total_sample :
    let e := sampleText "f-1".toList sampleJpeg.length
    let m := Framing.be32 e.length ++ e ++ sampleJpeg
    ∃ o, processBinary (sampleConfig "f-1".toList) vgaDecoder (fun _ => none) m.length m =
      .ok (some o) := by
  intro e m
  exact ⟨_, ((edge_total (sampleConfig "f-1".toList) vgaDecoder (fun _ => none)
    (show m.length < 2 ^ 63 by decide +kernel)).1 m.length (Nat.le_refl _)).1⟩

end LocateAnything.Edge.Panicking
