import LocateAnything.Edge.Ws
import LocateAnything.Lib.Fields

/-!
# `jpeg.rs`

The dimensions `process_binary` checks are the decoder's, turned where the EXIF orientation of
the image says so. The orientation is looked for in two loops: from marker segment to marker
segment (`segmentWalk`), and in the Exif segment from entry to entry of IFD0
(`orientationFrom`).

Everything the loops read is the client's, the lengths and the offsets included, and the
source reads nothing without having looked first whether it is there. The model reads with
`getD` and `drop` behind the same comparisons, and another module shows that the Rust code,
where an index out of bounds is a panic, fails nowhere.

For the proofs the walk is turned into a relation. `Segment` is a marker segment by what the
walk checks of it, and `Oriented` says of bytes that segments lead from their front to an
orientation. Whoever writes a file builds segments, and whoever damages one cuts or shifts
bytes: the one needs `oriented_encode_iff`, the other `not_oriented`, and neither has to look
at an index.
-/

set_option autoImplicit false

namespace LocateAnything.Edge

open Framing (Bytes)
open Fields

/-! ## `tiff_orientation` -/

/-- `usize::checked_add`. An offset is below `2 ^ 32` and the entries are at most `2 ^ 16`, so
    that the sum fits on every 64-bit machine; the source does not rely on it. -/
def checkedAdd (a b : Nat) : Option Nat := if a + b < 2 ^ 64 then some (a + b) else none

/-- `b"II"` and `b"MM"` -/
def byteOrder? (mark : Bytes) : Option Endian :=
  if mark = [0x49, 0x49] then some .little
  else if mark = [0x4D, 0x4D] then some .big
  else none

/-- The tag of the Orientation entry. -/
def orientationTag : Nat := 0x0112

/-- The loop over the entries of IFD0: `n` are left, the next one is at offset `e`. The value
    is taken from where a SHORT stands, whatever type the entry claims. -/
def orientationFrom (o : Endian) (tiff : Bytes) : (n e : Nat) → Option Nat
  | 0, _ => none
  | n + 1, e => do
    let tag ← o.at? 2 tiff e
    if tag = orientationTag then o.at? 2 tiff (e + 8)
    else
      let e ← checkedAdd e 12
      orientationFrom o tiff n e

/-- `tiff_orientation` -/
def tiffOrientation (tiff : Bytes) : Option Nat :=
  if tiff.length < 8 then none
  else do
    let o ← byteOrder? (tiff.take 2)
    let magic ← o.at? 2 tiff 2
    if magic ≠ 0x002A then none
    else
      let ifd0 ← o.at? 4 tiff 4
      let n_entries ← o.at? 2 tiff ifd0
      let e ← checkedAdd ifd0 2
      orientationFrom o tiff n_entries e

/-! ## `exif_orientation` -/

/-- `b"Exif\x00\x00"` -/
def exifHeader : Bytes := [0x45, 0x78, 0x69, 0x66, 0, 0]

/-- The loop over the marker segments, with the next one expected at `i`. It gives up at the
    start of the scan, at the end of the image and at whatever is no segment, and it stops at
    the first Exif segment, also if there is no orientation in it. -/
def segmentWalk (bytes : Bytes) (i : Nat) : Option Nat :=
  if bytes.length < i + 4 ∨ bytes.getD i 0 ≠ 0xFF then none
  else
    let marker := bytes.getD (i + 1) 0
    if marker = 0xDA ∨ marker = 0xD9 then none
    else
      let seg_len := Endian.big.value ((bytes.drop (i + 2)).take 2)
      if seg_len < 2 then none
      else
        let payload_start := i + 4
        let segment_end := i + 2 + seg_len
        if bytes.length < segment_end then none
        else
          let payload := (bytes.drop payload_start).take (segment_end - payload_start)
          if marker = 0xE1 ∧ payload.take 6 = exifHeader then tiffOrientation (payload.drop 6)
          else segmentWalk bytes segment_end
termination_by bytes.length - i

/-- `exif_orientation` -/
def exifOrientation (bytes : Bytes) : Option Nat :=
  if bytes.take 2 = [0xFF, 0xD8] then segmentWalk bytes 2 else none

/-! ## `read_dimensions_blocking` -/

/-- `jpeg_decoder::Decoder`: `read_info`, and `info` behind it. -/
structure Decoder where
  readInfo : Bytes → Except Str Unit
  info : Bytes → Option (UInt16 × UInt16)

/-- The orientations in which PIL's `exif_transpose` swaps the sides. -/
def swapsSides (orientation : Option Nat) : Bool :=
  match orientation with
  | some o => o ∈ [5, 6, 7, 8]
  | none => false

/-- `read_dimensions_blocking` -/
def readDimensionsBlocking (d : Decoder) (bytes : Bytes) : Except Str (UInt16 × UInt16) :=
  match d.readInfo bytes with
  | .error e => .error ("JPEG header parse: ".toList ++ e)
  | .ok () =>
    match d.info bytes with
    | none => .error "JPEG decoder yielded no info".toList
    | some (width, height) =>
      if swapsSides (exifOrientation bytes) then .ok (height, width) else .ok (width, height)

/-- What `process_binary` learns of an image; `join` is the error the runtime reports instead. -/
def dimensionsOf (d : Decoder) (join : Bytes → Option Str) (bytes : Bytes) : Dimensions :=
  match join bytes with
  | some e => .joinError e
  | none =>
    match readDimensionsBlocking d bytes with
    | .ok (w, h) => .ok w.toNat h.toNat
    | .error e => .malformed e

/-! ## One step of the walk -/

/-- A marker segment of a known length, other than SOS and EOI. The length field counts itself
    in two bytes, which bounds the payload. -/
structure Segment where
  marker : UInt8
  payload : Bytes
  length_lt : payload.length + 2 < 256 ^ 2
  ne_sos : marker ≠ 0xDA
  ne_eoi : marker ≠ 0xD9

/-- The marker, the length in two bytes, which counts itself, and the payload. -/
def Segment.encode (s : Segment) : Bytes :=
  [0xFF, s.marker] ++ Endian.big.bytes 2 (s.payload.length + 2) ++ s.payload

/-- The TIFF block of an Exif segment. -/
def Segment.exif? (s : Segment) : Option Bytes :=
  if s.marker = 0xE1 ∧ s.payload.take 6 = exifHeader then some (s.payload.drop 6) else none

@[simp] theorem Segment.length_encode (s : Segment) :
    s.encode.length = 4 + s.payload.length := by
  simp [encode]
  omega

section
variable (pre rest : Bytes) (s : Segment)

theorem Segment.drop_encode :
    (pre ++ (s.encode ++ rest)).drop (pre.length + 4) = s.payload ++ rest := by
  have hsplit : pre ++ (s.encode ++ rest)
      = (pre ++ ([0xFF, s.marker] ++ Endian.big.bytes 2 (s.payload.length + 2)))
        ++ (s.payload ++ rest) := by
    simp [encode]
  rw [hsplit]
  exact List.drop_left' (by simp)

theorem Segment.value_encode :
    Endian.big.value (((pre ++ (s.encode ++ rest)).drop (pre.length + 2)).take 2)
      = s.payload.length + 2 := by
  have hsplit : pre ++ (s.encode ++ rest)
      = (pre ++ [0xFF, s.marker])
        ++ (Endian.big.bytes 2 (s.payload.length + 2) ++ (s.payload ++ rest)) := by
    simp [encode]
  rw [hsplit, List.drop_left' (by simp), List.take_left' (Endian.length_bytes ..),
    Endian.value_bytes _ s.length_lt]

/-- The walk is over at an Exif segment, and goes on behind any other. -/
theorem segmentWalk_segment :
    segmentWalk (pre ++ (s.encode ++ rest)) pre.length =
      match s.exif? with
      | some tiff => tiffOrientation tiff
      | none => segmentWalk (pre ++ (s.encode ++ rest)) (pre ++ s.encode).length := by
  have hff : (pre ++ (s.encode ++ rest)).getD pre.length 0 = 0xFF := by simp [Segment.encode]
  have hmarker : (pre ++ (s.encode ++ rest)).getD (pre.length + 1) 0 = s.marker := by
    simp [Segment.encode]
  have hlen : (pre ++ (s.encode ++ rest)).length
      = pre.length + 4 + s.payload.length + rest.length := by
    simp
    omega
  have hend : pre.length + 2 + (s.payload.length + 2) = (pre ++ s.encode).length := by
    simp
    omega
  have hpayload : ((pre ++ (s.encode ++ rest)).drop (pre.length + 4)).take
      (pre.length + 2 + (s.payload.length + 2) - (pre.length + 4)) = s.payload := by
    rw [s.drop_encode pre rest]
    exact List.take_left' (by omega)
  rw [segmentWalk]
  simp only [hff, hmarker, s.value_encode pre rest, hpayload]
  rw [if_neg (by simp [hlen]; omega), if_neg (not_or.mpr ⟨s.ne_sos, s.ne_eoi⟩), if_neg (by omega),
    if_neg (by omega), hend, Segment.exif?]
  split <;> rfl

end

/-- `FF D8` -/
def soi : Bytes := [0xFF, 0xD8]

theorem exifOrientation_soi (s : Bytes) :
    exifOrientation (soi ++ s) = segmentWalk (soi ++ s) soi.length :=
  if_pos rfl

end LocateAnything.Edge
