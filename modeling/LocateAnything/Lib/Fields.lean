import LocateAnything.Lib.Framing
import Mathlib.Data.List.Induction

/-!
# Fixed-width fields

Unsigned numbers of a fixed number of bytes, in either byte order, and reading them at an
offset of a buffer. A field is read back between any bytes (`at?_append`), so that a record's
reader need not know where in the buffer the record stands.

Binary formats are read by offsets and written by concatenation. The lemmas here are about the
passage from one to the other: a buffer that is given as what stands in front, the field, and
what stands behind is read at the length of the first. A record of several fields is then read
field by field, each time with another split of the same buffer. The byte order is an
argument, since some formats leave it to the file.
-/

set_option autoImplicit false

namespace LocateAnything.Fields

open Framing (Bytes beValue)

/-! ## Byte order -/

/-- The order in which the bytes of a number stand. -/
inductive Endian where
  | little
  | big
  deriving DecidableEq

/-- The number its bytes spell. -/
def Endian.value : Endian → Bytes → Nat
  | big, s => beValue s
  | little, s => beValue s.reverse

/-- The `width` bytes of a number, least significant first. What does not fit is cut off. -/
def leBytes : (width n : Nat) → Bytes
  | 0, _ => []
  | width + 1, n => UInt8.ofNat n :: leBytes width (n / 256)

/-- A number in its bytes. -/
def Endian.bytes : Endian → (width n : Nat) → Bytes
  | big, width, n => (leBytes width n).reverse
  | little, width, n => leBytes width n

theorem length_leBytes (width n : Nat) : (leBytes width n).length = width := by
  induction width generalizing n with
  | zero => rfl
  | succ width ih => rw [leBytes, List.length_cons, ih]

@[simp] theorem Endian.length_bytes (o : Endian) (width n : Nat) :
    (o.bytes width n).length = width := by
  cases o with
  | little => exact length_leBytes width n
  | big => exact List.length_reverse.trans (length_leBytes width n)

theorem beValue_append_singleton (s : Bytes) (b : UInt8) :
    beValue (s ++ [b]) = beValue s * 256 + b.toNat := by
  simp [beValue]

theorem beValue_reverse_leBytes {width n : Nat} (h : n < 256 ^ width) :
    beValue (leBytes width n).reverse = n := by
  induction width generalizing n with
  | zero =>
    rw [Nat.pow_zero, Nat.lt_one_iff] at h
    exact h.symm
  | succ width ih =>
    have hrest : n / 256 < 256 ^ width := by
      rw [Nat.div_lt_iff_lt_mul (by decide)]
      rwa [Nat.pow_succ] at h
    rw [leBytes, List.reverse_cons, beValue_append_singleton, ih hrest, UInt8.toNat_ofNat']
    omega

theorem leBytes_beValue_reverse (s : Bytes) :
    leBytes s.length (beValue s.reverse) = s := by
  induction s with
  | nil => rfl
  | cons b s ih =>
    have hb := b.toNat_lt
    have hdiv : (beValue s.reverse * 256 + b.toNat) / 256 = beValue s.reverse := by omega
    have hmod : UInt8.ofNat (beValue s.reverse * 256 + b.toNat) = b := by
      apply UInt8.toNat.inj
      rw [UInt8.toNat_ofNat']
      omega
    rw [List.reverse_cons, beValue_append_singleton, List.length_cons, leBytes, hdiv, hmod, ih]

/-- A number that fits into its bytes is spelt by them. -/
theorem Endian.value_bytes (o : Endian) {width n : Nat} (h : n < 256 ^ width) :
    o.value (o.bytes width n) = n := by
  cases o with
  | little => exact beValue_reverse_leBytes h
  | big => exact beValue_reverse_leBytes h

/-- Any bytes spell a number of their width. -/
theorem Endian.bytes_value (o : Endian) (s : Bytes) : o.bytes s.length (o.value s) = s := by
  cases o with
  | little => exact leBytes_beValue_reverse s
  | big =>
    have hle := leBytes_beValue_reverse s.reverse
    rw [List.reverse_reverse, List.length_reverse] at hle
    exact (congrArg List.reverse hle).trans (List.reverse_reverse s)

theorem beValue_lt_pow (s : Bytes) : beValue s < 256 ^ s.length := by
  induction s using List.reverseRecOn with
  | nil => exact Nat.one_pos
  | append_singleton s b ih =>
    have hb := b.toNat_lt
    rw [beValue_append_singleton, List.length_append, List.length_singleton, Nat.pow_succ]
    omega

theorem Endian.value_lt (o : Endian) (s : Bytes) : o.value s < 256 ^ s.length := by
  cases o with
  | little => exact (beValue_lt_pow s.reverse).trans_eq (by rw [List.length_reverse])
  | big => exact beValue_lt_pow s

/-! ## Reading at an offset -/

/-- `bytes.get(off..off + len)` -/
def slice? (bytes : Bytes) (off len : Nat) : Option Bytes :=
  if off + len ≤ bytes.length then some ((bytes.drop off).take len) else none

theorem slice?_append {pre s : Bytes} (post : Bytes) {off len : Nat} (hoff : pre.length = off)
    (hlen : s.length = len) : slice? (pre ++ s ++ post) off len = some s := by
  subst hoff hlen
  have hle : pre.length + s.length ≤ (pre ++ s ++ post).length := by simp
  rw [slice?, if_pos hle, List.append_assoc, List.drop_left, List.take_left]

theorem slice?_eq_some {bytes s : Bytes} {off len : Nat} (h : slice? bytes off len = some s) :
    off + len ≤ bytes.length ∧ s.length = len := by
  unfold slice? at h
  split at h
  · rename_i hle
    obtain rfl := Option.some.inj h
    refine ⟨hle, ?_⟩
    rw [List.length_take, List.length_drop]
    omega
  · exact absurd h (by simp)

/-- A field of `width` bytes at an offset, if it is in the buffer. -/
def Endian.at? (o : Endian) (width : Nat) (bytes : Bytes) (off : Nat) : Option Nat :=
  (slice? bytes off width).map o.value

/-- A field is read back between any bytes. -/
theorem Endian.at?_append (o : Endian) {width n : Nat} (h : n < 256 ^ width)
    (pre post : Bytes) {off : Nat} (hoff : pre.length = off) :
    o.at? width (pre ++ o.bytes width n ++ post) off = some n := by
  rw [Endian.at?, slice?_append post hoff (o.length_bytes width n), Option.map_some,
    o.value_bytes h]

/-- What a read says about the buffer and about the number. -/
theorem Endian.at?_eq_some {o : Endian} {width off n : Nat} {bytes : Bytes}
    (h : o.at? width bytes off = some n) : off + width ≤ bytes.length ∧ n < 256 ^ width := by
  obtain ⟨s, hs, rfl⟩ := Option.map_eq_some_iff.mp h
  obtain ⟨hle, hlen⟩ := slice?_eq_some hs
  exact ⟨hle, hlen ▸ o.value_lt s⟩

end LocateAnything.Fields
