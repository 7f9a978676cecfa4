import LocateAnything.Lib.Regex
import LocateAnything.Lib.Binary64
import LocateAnything.Text

/-!
# `worker/parsing.py`

The parser of the model's answer text: three passes over the same string, each driven by its
own regular expressions, reconciled by span-overlap tests. The expressions are transcribed
node by node into `Lib/Regex.lean`; the functions below follow the source's passes in order.

The passes are kept as they are, with the scans the source repeats, and are not merged into
one reading of the answer. That the answer of a well-behaved model has a structure (groups,
blocks and abstentions) is a result about the parser, not a part of it, and what it does to
other answers comes out of the spans alone.

A Python `int` coordinate is an `Int`, a pixel coordinate a binary64 number
(`Lib/Binary64.lean`). `int()` is total here: CPython's limit on the length of digit strings
is not part of this model.
-/

set_option autoImplicit false

namespace LocateAnything.Worker

open LocateAnything.Regex LocateAnything.Scan Py

/-! ## The expressions -/

/-- The four tags of the answer language. -/
def boxOpen : Str := ['<', 'b', 'o', 'x', '>']
def boxClose : Str := ['<', '/', 'b', 'o', 'x', '>']
def refOpen : Str := ['<', 'r', 'e', 'f', '>']
def refClose : Str := ['<', '/', 'r', 'e', 'f', '>']

/-- `<(\d+)>` for the groups `k, …, k + n - 1`, then `</box>`. -/
def coordsRe : (k n : Nat) → Regex Char
  | _, 0 => lit boxClose
  | k, n + 1 =>
    cat (lit ['<']) (cat (group k (plus true (sym isDecimal)))
      (cat (lit ['>']) (coordsRe (k + 1) n)))

/-- A `<box>` block of exactly `n` numeric coordinates. -/
def coordBlockRe (n : Nat) : Regex Char := cat (lit boxOpen) (coordsRe 1 n)

/-- `_BOX_RE = <box><(\d+)><(\d+)><(\d+)><(\d+)></box>` -/
def boxRe : Regex Char := coordBlockRe 4

/-- `_POINT_RE = <box><(\d+)><(\d+)></box>` -/
def pointRe : Regex Char := coordBlockRe 2

/-- `_NONE_RE = <box>[Nn]one</box>` -/
def noneRe : Regex Char :=
  cat (lit boxOpen) (cat (sym fun c => c = 'N' || c = 'n') (lit ['o', 'n', 'e', '<', '/', 'b', 'o', 'x', '>']))

/-- `_ANY_BOX_RE = <box>.*?</box>`, DOTALL -/
def anyBoxRe : Regex Char := cat (lit boxOpen) (upTo boxClose)

/-- One sibling of a ref-run: `\s*<box>.*?</box>`. -/
def siblingRe : Regex Char := cat (star true (sym isSpace)) anyBoxRe

/-- The numbers of `_REF_RUN_RE`'s named groups. -/
def labelGroup : Nat := 1
def boxesGroup : Nat := 2

/-- `_REF_RUN_RE = <ref>(?P<label>[^<]*?)</ref>(?P<boxes>(?:\s*<box>.*?</box>)+)`, DOTALL -/
def refRunRe : Regex Char :=
  cat (lit refOpen) (cat (group labelGroup (star false (sym fun c => c != '<')))
    (cat (lit refClose) (group boxesGroup (plus true siblingRe))))

/-! ## Geometry -/

structure Detection where
  label : Str
  /-- `[x1, y1, x2, y2]` on the `[0, 1000]` grid. -/
  bbox_norm : List Int
  bbox_px : List ℚ
  deriving DecidableEq

structure Point where
  label : Str
  /-- `[x, y]` on the `[0, 1000]` grid. -/
  point_norm : List Int
  point_px : List ℚ
  deriving DecidableEq

/-- `_clamp_coord` -/
def clampCoord (c : Int) : Int := if c < 0 then 0 else if c > 1000 then 1000 else c

/-- `round(c / 1000.0 * dim, 2)` -/
def px (c : Int) (dim : Nat) : ℚ :=
  Binary64.pyRound (Binary64.double (Binary64.double (c / 1000) * dim)) 2

/-- `_make_box` -/
def makeBox (label : Str) (x1 y1 x2 y2 : Int) (imageWidth imageHeight : Nat) : Detection :=
  let xLo := min (clampCoord x1) (clampCoord x2)
  let xHi := max (clampCoord x1) (clampCoord x2)
  let yLo := min (clampCoord y1) (clampCoord y2)
  let yHi := max (clampCoord y1) (clampCoord y2)
  { label
    bbox_norm := [xLo, yLo, xHi, yHi]
    bbox_px := [px xLo imageWidth, px yLo imageHeight, px xHi imageWidth, px yHi imageHeight] }

/-- `_make_point` -/
def makePoint (label : Str) (x y : Int) (imageWidth imageHeight : Nat) : Point :=
  let xc := clampCoord x
  let yc := clampCoord y
  { label
    point_norm := [xc, yc]
    point_px := [px xc imageWidth, px yc imageHeight] }

/-! ## `parse_boxes` -/

/-- `m.group("label").strip()` -/
def runLabel (m : Match Char) : Str := strip (m.group labelGroup)

/-- The detection of one `_BOX_RE` match in a run with this label. -/
def boxOf (label : Str) (w h : Nat) (bm : Match Char) : Detection :=
  makeBox label (int (bm.group 1)) (int (bm.group 2)) (int (bm.group 3)) (int (bm.group 4)) w h

/-- Pass 1 over one ref-run: its detections, and what it adds to `off_contract`. -/
def boxesOfRun (w h : Nat) (m : Match Char) : List Detection × Nat :=
  let boxesInRun := boxRe.finditer (m.group boxesGroup)
  if runLabel m = [] then ([], boxesInRun.length)
  else (boxesInRun.map (boxOf (runLabel m) w h), 0)

/-- Pass 2: the `_BOX_RE` matches outside every ref-run. -/
def orphanBoxes (answer : Str) : List (Match Char) :=
  let consumedIntervals := refRunRe.finditer answer
  (boxRe.finditer answer).filter fun m => !consumedIntervals.any fun i => m.overlaps i

def parseBoxes (answer : Str) (imageWidth imageHeight : Nat) : List Detection × Nat :=
  let runs := refRunRe.finditer answer
  (runs.flatMap fun m => (boxesOfRun imageWidth imageHeight m).1,
   (runs.map fun m => (boxesOfRun imageWidth imageHeight m).2).sum + (orphanBoxes answer).length)

/-! ## `parse_points` -/

/-- The `_POINT_RE` matches of one ref-run at their place in the answer, less those that
    overlap a box. -/
def pointsInRun (boxSpans : List (Match Char)) (m : Match Char) : List (Match Char) :=
  ((pointRe.finditer (m.group boxesGroup)).map (Found.shift (m.startOf boxesGroup))).filter
    fun pm => !boxSpans.any fun b => pm.overlaps b

/-- The point of one `_POINT_RE` match under this label. -/
def pointOf (label : Str) (w h : Nat) (pm : Match Char) : Point :=
  makePoint label (int (pm.group 1)) (int (pm.group 2)) w h

/-- Pass 1 over one ref-run. -/
def pointsOfRun (boxSpans : List (Match Char)) (w h : Nat) (m : Match Char) : List Point × Nat :=
  if runLabel m = [] then ([], (pointsInRun boxSpans m).length)
  else ((pointsInRun boxSpans m).map (pointOf (runLabel m) w h), 0)

/-- Pass 2: the `_POINT_RE` matches outside every box and not taken by pass 1. -/
def barePoints (answer : Str) : List (Match Char) :=
  let boxSpans := boxRe.finditer answer
  let consumedPointSpans := (refRunRe.finditer answer).flatMap (pointsInRun boxSpans)
  (pointRe.finditer answer).filter fun m =>
    (!boxSpans.any fun b => m.overlaps b) && !consumedPointSpans.any fun p => m.overlaps p

/-- `if point_label:` — `None` and `""` are both false. -/
def truthy : Option Str → Option Str
  | some [] => none
  | l => l

def parsePoints (answer : Str) (imageWidth imageHeight : Nat) (pointLabel : Option Str) :
    List Point × Nat :=
  let boxSpans := boxRe.finditer answer
  let runs := refRunRe.finditer answer
  let out := runs.flatMap fun m => (pointsOfRun boxSpans imageWidth imageHeight m).1
  let offContract := (runs.map fun m => (pointsOfRun boxSpans imageWidth imageHeight m).2).sum
  match truthy pointLabel with
  | some l => (out ++ (barePoints answer).map (pointOf l imageWidth imageHeight), offContract)
  | none => (out, offContract + (barePoints answer).length)

/-! ## `count_malformed_geometry` -/

/-- A closed block in one of the three on-contract forms. -/
def onContract (block : Str) : Bool :=
  boxRe.fullmatch block || pointRe.fullmatch block || noneRe.fullmatch block

def countMalformedGeometry (answer : Str) : Nat :=
  ((anyBoxRe.finditer answer).filter fun m => !onContract (m.whole answer)).length

end LocateAnything.Worker
