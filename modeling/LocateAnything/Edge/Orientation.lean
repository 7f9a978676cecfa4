import LocateAnything.Edge.Jpeg

/-!
# Reading the orientation back

A file as a camera writes it: marker segments, an Exif segment among the first of them, and in
its TIFF block, in either byte order and anywhere behind the header, IFD0 with its entries.
What `exif_orientation` reads of it is what is written (`orientation_read_back`).

The reader is a chain of offsets: segment lengths lead to the Exif segment, an offset in its
header to IFD0, a count to the entries. Each of them is a number written elsewhere in the
file, so that the chain is right is a statement about the file as a whole. Here files are
data, built from their parts (`TiffBlock`, `ExifSegment`), with an encoding that computes the
offsets; and what is proved is that the reader takes the encoding apart again. The parts are
as free as the format lets them be: a gap in front of IFD0, any entries around the
orientation, anything behind it.

The turn of the image hangs on this. A client that holds its camera upright sends columns and
rows exchanged, and the worker will decode them turned; the edge's checks on the dimensions
are about the turned image only if it reads the same orientation as the worker does.
-/

set_option autoImplicit false

namespace LocateAnything.Edge

open Framing (Bytes)
open Fields

/-! ## Entries -/

/-- An entry of an IFD. The value field has four bytes; a SHORT stands in the first two, in
    either byte order. -/
structure Entry where
  tag : UInt16
  type : UInt16
  count : UInt32
  short : UInt16
  pad : UInt16

def Entry.encode (o : Endian) (e : Entry) : Bytes :=
  o.bytes 2 e.tag.toNat ++ o.bytes 2 e.type.toNat ++ o.bytes 4 e.count.toNat ++
    o.bytes 2 e.short.toNat ++ o.bytes 2 e.pad.toNat

def Entry.IsOrientation (e : Entry) : Prop := e.tag.toNat = orientationTag

instance (e : Entry) : Decidable e.IsOrientation := inferInstanceAs (Decidable (_ = _))

@[simp] theorem Entry.length_encode (o : Endian) (e : Entry) : (e.encode o).length = 12 := by
  simp [encode]

theorem Entry.length_flatMap_encode (o : Endian) (entries : List Entry) :
    (entries.flatMap (Entry.encode o)).length = 12 * entries.length := by
  induction entries with
  | nil => rfl
  | cons e entries ih =>
    rw [List.flatMap_cons, List.length_append, e.length_encode, ih, List.length_cons]
    omega

/-- Any twelve bytes are an entry, so a block with foreign entries is a block of this kind,
    too. -/
theorem Entry.exists_encode (o : Endian) {s : Bytes} (h : s.length = 12) :
    ∃ e : Entry, s = e.encode o := by
  match s, h with
  | [a, b, c, d, e, f, g, i, j, k, l, m], _ =>
    have short : ∀ x y : UInt8, ∃ n : UInt16, [x, y] = o.bytes 2 n.toNat := by
      intro x y
      refine ⟨UInt16.ofNat (o.value [x, y]), ?_⟩
      have hlt : o.value [x, y] < 2 ^ 16 := (o.value_lt [x, y]).trans_eq (by norm_num)
      rw [UInt16.toNat_ofNat', Nat.mod_eq_of_lt hlt]
      exact (o.bytes_value [x, y]).symm
    have long : ∃ n : UInt32, [e, f, g, i] = o.bytes 4 n.toNat := by
      refine ⟨UInt32.ofNat (o.value [e, f, g, i]), ?_⟩
      have hlt : o.value [e, f, g, i] < 2 ^ 32 :=
        (o.value_lt [e, f, g, i]).trans_eq (by norm_num)
      rw [UInt32.toNat_ofNat', Nat.mod_eq_of_lt hlt]
      exact (o.bytes_value [e, f, g, i]).symm
    obtain ⟨tag, htag⟩ := short a b
    obtain ⟨type, htype⟩ := short c d
    obtain ⟨count, hcount⟩ := long
    obtain ⟨value, hvalue⟩ := short j k
    obtain ⟨pad, hpad⟩ := short l m
    refine ⟨⟨tag, type, count, value, pad⟩, ?_⟩
    rw [encode, ← htag, ← htype, ← hcount, ← hvalue, ← hpad]
    rfl

section
variable (o : Endian) (pre post : Bytes) (e : Entry)

theorem Entry.at?_tag : o.at? 2 (pre ++ (e.encode o ++ post)) pre.length = some e.tag.toNat := by
  have hlt : e.tag.toNat < 256 ^ 2 := e.tag.toNat_lt
  simpa [encode] using o.at?_append hlt pre _ rfl

theorem Entry.at?_short :
    o.at? 2 (pre ++ (e.encode o ++ post)) (pre.length + 8) = some e.short.toNat := by
  have hlt : e.short.toNat < 256 ^ 2 := e.short.toNat_lt
  have hoff : (pre ++ (o.bytes 2 e.tag.toNat ++ o.bytes 2 e.type.toNat ++
      o.bytes 4 e.count.toNat)).length = pre.length + 8 := by simp
  simpa [encode] using o.at?_append hlt _ (o.bytes 2 e.pad.toNat ++ post) hoff

end

/-- The loop over the entries finds the first Orientation entry. The bound is that of the
    offsets, which a `usize` holds. -/
theorem orientationFrom_entries (o : Endian) (pre post : Bytes) (entries : List Entry)
    (hlen : (pre ++ (entries.flatMap (Entry.encode o) ++ post)).length < 2 ^ 64) :
    orientationFrom o (pre ++ (entries.flatMap (Entry.encode o) ++ post)) entries.length pre.length
      = (entries.find? fun e => e.IsOrientation).map fun e => e.short.toNat := by
  induction entries generalizing pre with
  | nil => rfl
  | cons e entries ih =>
    rw [List.flatMap_cons, List.append_assoc] at hlen ⊢
    rw [List.length_cons, orientationFrom, e.at?_tag]
    by_cases h : e.IsOrientation
    · simp [h, show e.tag.toNat = orientationTag from h, e.at?_short]
    · have hadd : checkedAdd pre.length 12 = some (pre ++ e.encode o).length := by
        rw [checkedAdd, if_pos (by simp at hlen; omega), List.length_append, e.length_encode]
      have hrest := ih (pre ++ e.encode o) (by rwa [List.append_assoc])
      rw [List.append_assoc] at hrest
      simp only [Option.bind_eq_bind, Option.bind_some]
      rw [if_neg (show ¬ e.tag.toNat = orientationTag from h), hadd, Option.bind_some, hrest,
        List.find?_cons_of_neg (by simpa using h)]

/-! ## TIFF blocks -/

/-- A TIFF block: behind its header of eight bytes `gap`, then IFD0, then `rest`. Other
    directories, and values too large for an entry, are in `gap` and `rest`. -/
structure TiffBlock where
  order : Endian
  gap : Bytes
  entries : List Entry
  rest : Bytes

/-- `II` or `MM` -/
def mark : Endian → Bytes
  | .little => [0x49, 0x49]
  | .big => [0x4D, 0x4D]

namespace TiffBlock
variable (t : TiffBlock)

/-- The byte order, the magic number and the offset of IFD0. -/
def header : Bytes :=
  mark t.order ++ t.order.bytes 2 0x002A ++ t.order.bytes 4 (8 + t.gap.length)

/-- The number of entries and the entries. -/
def ifd0 : Bytes :=
  t.order.bytes 2 t.entries.length ++ t.entries.flatMap (Entry.encode t.order)

def encode : Bytes := t.header ++ t.gap ++ t.ifd0 ++ t.rest

/-- The SHORT of the first Orientation entry. -/
def orientation : Option Nat :=
  (t.entries.find? fun e => e.IsOrientation).map fun e => e.short.toNat

@[simp] theorem length_header : t.header.length = 8 := by
  cases h : t.order <;> simp [header, mark, h]

theorem length_encode :
    t.encode.length = 10 + t.gap.length + 12 * t.entries.length + t.rest.length := by
  simp only [encode, ifd0, List.length_append, length_header, Endian.length_bytes,
    Entry.length_flatMap_encode]
  omega

theorem byteOrder?_encode : byteOrder? (t.encode.take 2) = some t.order := by
  cases h : t.order <;> simp [encode, header, mark, byteOrder?, h]

theorem at?_magic : t.order.at? 2 t.encode 2 = some 0x002A := by
  have hmark : (mark t.order).length = 2 := by cases t.order <;> rfl
  have hlt : 0x002A < 256 ^ 2 := by norm_num
  have := t.order.at?_append hlt _
    (t.order.bytes 4 (8 + t.gap.length) ++ (t.gap ++ (t.ifd0 ++ t.rest))) hmark
  simpa [encode, header] using this

/-- The offset of IFD0 is where it says, whatever the gap. -/
theorem at?_offset (hlt : 8 + t.gap.length < 256 ^ 4) :
    t.order.at? 4 t.encode 4 = some (8 + t.gap.length) := by
  have hmark : (mark t.order ++ t.order.bytes 2 0x002A).length = 4 := by cases t.order <;> rfl
  have := t.order.at?_append hlt _ (t.gap ++ (t.ifd0 ++ t.rest)) hmark
  simpa [encode, header] using this

theorem at?_count (hlt : t.entries.length < 256 ^ 2) :
    t.order.at? 2 t.encode (8 + t.gap.length) = some t.entries.length := by
  have hoff : (t.header ++ t.gap).length = 8 + t.gap.length := by simp
  have := t.order.at?_append hlt _ (t.entries.flatMap (Entry.encode t.order) ++ t.rest) hoff
  simpa [encode, ifd0] using this

/-- **The orientation of a TIFF block is that of its first Orientation entry.** -/
theorem tiffOrientation_encode (hlen : t.encode.length < 2 ^ 16) :
    tiffOrientation t.encode = t.orientation := by
  have hlength := t.length_encode
  have hentries := orientationFrom_entries t.order
    (t.header ++ t.gap ++ t.order.bytes 2 t.entries.length) t.rest t.entries
  have hsplit : t.header ++ t.gap ++ t.order.bytes 2 t.entries.length ++
      (t.entries.flatMap (Entry.encode t.order) ++ t.rest) = t.encode := by
    simp [encode, ifd0]
  have hadd : checkedAdd (8 + t.gap.length) 2 =
      some (t.header ++ t.gap ++ t.order.bytes 2 t.entries.length).length := by
    rw [checkedAdd, if_pos (by omega)]
    simp [Nat.add_assoc]
  rw [hsplit] at hentries
  rw [tiffOrientation, if_neg (by omega), t.byteOrder?_encode]
  simp only [Option.bind_eq_bind, Option.bind_some, t.at?_magic, t.at?_offset (by omega),
    t.at?_count (by omega), hadd, ne_eq, not_true_eq_false, if_false]
  exact hentries (by omega)

end TiffBlock

/-! ## Files -/

/-- An APP1 segment with a TIFF block behind `Exif\0\0`. A segment's length has two bytes, so
    the block's size is bounded, and with it every offset in it. -/
structure ExifSegment extends TiffBlock where
  fits : toTiffBlock.encode.length + 8 < 256 ^ 2

def ExifSegment.toSegment (x : ExifSegment) : Segment where
  marker := 0xE1
  payload := exifHeader ++ x.encode
  length_lt := by
    have := x.fits
    simp only [List.length_append, exifHeader, List.length_cons, List.length_nil]
    omega
  ne_sos := by decide
  ne_eoi := by decide

theorem ExifSegment.exif?_toSegment (x : ExifSegment) : x.toSegment.exif? = some x.encode := by
  rw [Segment.exif?, if_pos ⟨rfl, List.take_left' rfl⟩]
  rfl

/-- The walk passes over segments other than Exif. An APP1 segment with other contents, such
    as XMP, is one of these. -/
theorem segmentWalk_segments (pre rest : Bytes) {segs : List Segment}
    (hsegs : ∀ s ∈ segs, s.exif? = none) :
    segmentWalk (pre ++ (segs.flatMap Segment.encode ++ rest)) pre.length =
      segmentWalk (pre ++ (segs.flatMap Segment.encode ++ rest))
        (pre ++ segs.flatMap Segment.encode).length := by
  induction segs generalizing pre with
  | nil => simp
  | cons s segs ih =>
    have hs : s.exif? = none := hsegs s List.mem_cons_self
    have hrest := ih (pre ++ s.encode) fun x hx => hsegs x (List.mem_cons_of_mem s hx)
    rw [List.append_assoc, List.append_assoc] at hrest
    rw [List.flatMap_cons, List.append_assoc, segmentWalk_segment, hs]
    exact hrest

/-- SOI, segments, an Exif segment and anything behind it. -/
def ExifSegment.file (x : ExifSegment) (segs : List Segment) (rest : Bytes) : Bytes :=
  soi ++ segs.flatMap Segment.encode ++ x.toSegment.encode ++ rest

theorem exifOrientation_file {segs : List Segment} (hsegs : ∀ s ∈ segs, s.exif? = none)
    (x : ExifSegment) (rest : Bytes) :
    exifOrientation (x.file segs rest) = x.orientation := by
  have hfile : x.file segs rest
      = soi ++ (segs.flatMap Segment.encode ++ (x.toSegment.encode ++ rest)) := by
    simp only [ExifSegment.file, List.append_assoc]
  have hfits : x.encode.length < 2 ^ 16 := Nat.lt_of_le_of_lt (Nat.le_add_right _ 8) x.fits
  calc exifOrientation (x.file segs rest)
      = segmentWalk (x.file segs rest) soi.length := by rw [hfile, exifOrientation_soi]
    _ = segmentWalk (x.file segs rest) (soi ++ segs.flatMap Segment.encode).length := by
      rw [hfile, segmentWalk_segments soi _ hsegs]
    _ = tiffOrientation x.encode := by
      rw [hfile, ← List.append_assoc, segmentWalk_segment, x.exif?_toSegment]
    _ = x.orientation := x.tiffOrientation_encode hfits

/-- **What is written as the orientation is read, and turns the decoder's dimensions exactly if it
    is 5, 6, 7 or 8.** -/
theorem orientation_read_back (segs : List Segment) (hsegs : ∀ s ∈ segs, s.exif? = none)
    (x : ExifSegment) (rest : Bytes) :
    exifOrientation (x.file segs rest) = x.orientation ∧
      ∀ (d : Decoder) (w h : UInt16), d.readInfo (x.file segs rest) = .ok () →
        d.info (x.file segs rest) = some (w, h) →
        ((∃ v, x.orientation = some v ∧ (v = 5 ∨ v = 6 ∨ v = 7 ∨ v = 8)) →
          readDimensionsBlocking d (x.file segs rest) = .ok (h, w)) ∧
        ((¬ ∃ v, x.orientation = some v ∧ (v = 5 ∨ v = 6 ∨ v = 7 ∨ v = 8)) →
          readDimensionsBlocking d (x.file segs rest) = .ok (w, h)) := by
  have hread := exifOrientation_file hsegs x rest
  refine ⟨hread, fun d w h hinfo hdims => ?_⟩
  have hswaps : (∃ v, x.orientation = some v ∧ (v = 5 ∨ v = 6 ∨ v = 7 ∨ v = 8)) ↔
      swapsSides x.orientation = true := by
    cases ho : x.orientation with
    | none => simp [swapsSides]
    | some v => simp [swapsSides]
  rw [readDimensionsBlocking, hinfo, hdims, hread, hswaps]
  constructor
  · intro hs
    exact if_pos hs
  · intro hs
    exact if_neg hs

/-- Version 1.1, no thumbnail. -/
def jfif : Segment where
  marker := 0xE0
  payload := [0x4A, 0x46, 0x49, 0x46, 0, 1, 1, 0, 0, 1, 0, 1, 0, 0]
  length_lt := by decide
  ne_sos := by decide
  ne_eoi := by decide

/-- A camera held upright: the second entry is the orientation, 6. -/
def upright : ExifSegment where
  order := .big
  gap := [0, 0]
  entries := [⟨0x0100, 3, 1, 640, 0⟩, ⟨0x0112, 3, 1, 6, 0⟩]
  rest := [0, 0, 0, 0]
  fits := by rw [TiffBlock.length_encode]; decide

/-- A decoder that finds 640 columns and 480 rows. -/
def vgaDecoder : Decoder where
  readInfo _ := .ok ()
  info _ := some (640, 480)

theorem orientation_read_back_upright :
    exifOrientation (upright.file [jfif] [0xFF, 0xDA]) = some 6 ∧
      readDimensionsBlocking vgaDecoder (upright.file [jfif] [0xFF, 0xDA]) = .ok (480, 640) := by
  have h := orientation_read_back [jfif] (by decide) upright [0xFF, 0xDA]
  exact ⟨h.1, (h.2 vgaDecoder 640 480 rfl rfl).1 ⟨6, rfl, .inr (.inl rfl)⟩⟩

end LocateAnything.Edge
