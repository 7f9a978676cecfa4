import Mathlib.Data.List.Basic
import Mathlib.Tactic.NormNum

/-!
# Length-prefixed frames

A byte stream as a sequence of frames, each behind its length in four bytes, most significant
first. `decode` reads the first frame of what has arrived so far. The code is a prefix code: a
stream is cut into frames in one way (`encode_append_inj`), and `decode` finds the cut
(`decode_eq_frame_iff`). Every stream is frames and a rest in which none is complete.

A reader of a stream may see it in pieces of any size, and has to answer on a prefix: so there
is an answer for bytes that are not enough (`more`), apart from the one for a length beyond
the limit. The limit belongs to the reader, not to the code, as two parties may have different
ones.
-/

set_option autoImplicit false

namespace LocateAnything.Framing

abbrev Bytes := List UInt8

/-- The four bytes of a length. A length beyond four bytes is cut off, which is why the lemmas
    have a bound on it. -/
def be32 (n : Nat) : Bytes :=
  [UInt8.ofNat (n / 2 ^ 24), UInt8.ofNat (n / 2 ^ 16), UInt8.ofNat (n / 2 ^ 8), UInt8.ofNat n]

/-- The number its bytes spell, most significant first. -/
def beValue (s : Bytes) : Nat := s.foldl (fun n b => n * 256 + b.toNat) 0

def encode (d : Bytes) : Bytes := be32 d.length ++ d

/-- Frames, encoded one behind the other. -/
def stream (ds : List Bytes) : Bytes := (ds.map encode).flatten

inductive Decoded where
  /-- The frame has not arrived completely. -/
  | more
  /-- It is announced as longer than allowed. -/
  | tooLong
  | frame (d rest : Bytes)

/-- The first frame of a stream, of at most `max` bytes. -/
def decode (max : Nat) (s : Bytes) : Decoded :=
  if s.length < 4 then .more
  else
    let n := beValue (s.take 4)
    if max < n then .tooLong
    else if s.length < 4 + n then .more
    else .frame ((s.drop 4).take n) ((s.drop 4).drop n)

/-- No frame of at most `max` bytes stands at the front: it is cut off, or announced as longer. -/
def Incomplete (max : Nat) (s : Bytes) : Prop := ∀ d rest, decode max s ≠ .frame d rest

@[simp] theorem be32_length (n : Nat) : (be32 n).length = 4 := rfl

@[simp] theorem encode_length (d : Bytes) : (encode d).length = 4 + d.length := by
  simp [encode]

@[simp] theorem stream_nil : stream [] = [] := rfl

@[simp] theorem stream_cons (d : Bytes) (ds : List Bytes) :
    stream (d :: ds) = encode d ++ stream ds := rfl

theorem beValue_be32 {n : Nat} (h : n < 2 ^ 32) : beValue (be32 n) = n := by
  simp only [beValue, be32, List.foldl_cons, List.foldl_nil, UInt8.toNat_ofNat']
  omega

theorem be32_beValue {s : Bytes} (h : s.length = 4) : be32 (beValue s) = s := by
  match s, h with
  | [a, b, c, d], _ =>
    have ha := a.toNat_lt
    have hb := b.toNat_lt
    have hc := c.toNat_lt
    have hd := d.toNat_lt
    simp only [be32, beValue, List.foldl_cons, List.foldl_nil, List.cons.injEq, and_true]
    refine ⟨?_, ?_, ?_, ?_⟩ <;>
    · apply UInt8.toNat.inj
      simp only [UInt8.toNat_ofNat']
      omega

theorem beValue_lt {s : Bytes} (h : s.length = 4) : beValue s < 2 ^ 32 := by
  match s, h with
  | [a, b, c, d], _ =>
    have ha := a.toNat_lt
    have hb := b.toNat_lt
    have hc := c.toNat_lt
    have hd := d.toNat_lt
    simp only [beValue, List.foldl_cons, List.foldl_nil]
    omega

theorem take_four_encode {d : Bytes} (rest : Bytes) :
    (encode d ++ rest).take 4 = be32 d.length := by
  rw [encode, List.append_assoc]
  exact List.take_left' (be32_length _)

/-- A stream is cut into frames in one way. What stands behind the frame may be anything, so
    the lemma goes along a stream frame by frame. -/
theorem encode_append_inj {d d' a b : Bytes} (hd : d.length < 2 ^ 32) (hd' : d'.length < 2 ^ 32)
    (h : encode d ++ a = encode d' ++ b) : d = d' ∧ a = b := by
  have hlen : d.length = d'.length := by
    have := congrArg (fun s => beValue (s.take 4)) h
    simpa only [take_four_encode, beValue_be32 hd, beValue_be32 hd'] using this
  have hcut := List.append_inj h (by simp [hlen])
  exact ⟨List.append_cancel_left (by simpa only [encode, hlen] using hcut.1), hcut.2⟩

theorem decode_nil (max : Nat) : decode max [] = .more := rfl

theorem decode_eq_frame_iff {max : Nat} (hmax : max < 2 ^ 32) {s d rest : Bytes} :
    decode max s = .frame d rest ↔ s = encode d ++ rest ∧ d.length ≤ max := by
  constructor
  · intro h
    simp only [decode] at h
    split at h
    · exact absurd h (by simp)
    rename_i h4
    split at h
    · exact absurd h (by simp)
    rename_i hn
    split at h
    · exact absurd h (by simp)
    rename_i hlen
    simp only [Decoded.frame.injEq] at h
    obtain ⟨rfl, rfl⟩ := h
    -- the four bytes are those of the length, because nothing is missing behind them
    have hd : ((s.drop 4).take (beValue (s.take 4))).length = beValue (s.take 4) := by
      simp; omega
    refine ⟨?_, by omega⟩
    rw [encode, hd, be32_beValue (by simp; omega), List.append_assoc, List.take_append_drop,
      List.take_append_drop]
  · rintro ⟨rfl, hd⟩
    have hv : beValue ((encode d ++ rest).take 4) = d.length := by
      rw [take_four_encode, beValue_be32 (by omega)]
    have hdrop : (encode d ++ rest).drop 4 = d ++ rest := by
      rw [encode, List.append_assoc]
      exact List.drop_left' (be32_length _)
    have h4 : ¬ (encode d ++ rest).length < 4 := by simp; omega
    have hlen : ¬ (encode d ++ rest).length < 4 + d.length := by simp
    simp only [decode, hv, if_neg h4, if_neg hlen, if_neg (Nat.not_lt.mpr hd), hdrop]
    simp

end LocateAnything.Framing
