import Mathlib.Algebra.GroupWithZero.Nat
import Mathlib.Data.List.DropRight
import Mathlib.Data.List.Infix

/-!
# Text, as Python and Rust class its characters

Strings are lists of Unicode scalar values. The two languages agree on what a string is and
disagree on what a space is, which matters wherever one side strips what the other side
validated: Python's `str.strip` and `\s` also take U+001C..U+001F, Rust's `str::trim` does not
(and rejects them elsewhere as control characters, `isSpace_white_or_control`).

The tables are Unicode 15.0, the version CPython 3.12 carries. They are written out, since
digits of other scripts are digits for `\d` and `int`, and an answer may hold them. How a
string is encoded is not seen at this level, but for its length: Rust counts bytes where
Python counts characters, and `Rust.len` is there for the places where the difference is one.
-/

set_option autoImplicit false

namespace LocateAnything

/-- A string: its Unicode scalar values. -/
abbrev Str := List Char

instance : LawfulBEq Str := inferInstance

/-! ## Python -/

namespace Py

/-- `str.isspace` on one character; the class `\s`. -/
def isSpace (c : Char) : Bool :=
  let n := c.toNat
  (9 ≤ n && n ≤ 13) || (28 ≤ n && n ≤ 32) || n = 0x85 || n = 0xA0 || n = 0x1680 ||
    (0x2000 ≤ n && n ≤ 0x200A) || n = 0x2028 || n = 0x2029 || n = 0x202F || n = 0x205F ||
    n = 0x3000

/-- The zero digit of every decimal digit range (general category Nd: 68 ranges of ten). -/
def decimalZeros : List Nat :=
  [0x30, 0x660, 0x6F0, 0x7C0, 0x966, 0x9E6, 0xA66, 0xAE6, 0xB66, 0xBE6, 0xC66, 0xCE6, 0xD66,
   0xDE6, 0xE50, 0xED0, 0xF20, 0x1040, 0x1090, 0x17E0, 0x1810, 0x1946, 0x19D0, 0x1A80, 0x1A90,
   0x1B50, 0x1BB0, 0x1C40, 0x1C50, 0xA620, 0xA8D0, 0xA900, 0xA9D0, 0xA9F0, 0xAA50, 0xABF0,
   0xFF10, 0x104A0, 0x10D30, 0x11066, 0x110F0, 0x11136, 0x111D0, 0x112F0, 0x11450, 0x114D0,
   0x11650, 0x116C0, 0x11730, 0x118E0, 0x11950, 0x11C50, 0x11D50, 0x11DA0, 0x11F50, 0x16A60,
   0x16AC0, 0x16B50, 0x1D7CE, 0x1D7D8, 0x1D7E2, 0x1D7EC, 0x1D7F6, 0x1E140, 0x1E2F0, 0x1E4F0,
   0x1E950, 0x1FBF0]

/-- The value of a decimal digit. -/
def decimalValue? (c : Char) : Option Nat :=
  (decimalZeros.find? fun z => decide (z ≤ c.toNat) && decide (c.toNat < z + 10)).map
    fun z => c.toNat - z

/-- The class `\d`. -/
def isDecimal (c : Char) : Bool := (decimalValue? c).isSome

/-- `int(s)` on a run of decimal digits, without CPython's limit on their number. -/
def int (s : Str) : Nat := s.foldl (fun n c => 10 * n + (decimalValue? c).getD 0) 0

/-- `s.strip()`. -/
def strip (s : Str) : Str := (s.dropWhile isSpace).rdropWhile isSpace

/-- `str(n)`. -/
def str (n : Nat) : Str := Nat.toDigits 10 n

theorem strip_eq_self {s : Str} (hfirst : ∀ c t, s = c :: t → isSpace c = false)
    (hlast : ∀ c t, s = t ++ [c] → isSpace c = false) : strip s = s := by
  have hd : s.dropWhile isSpace = s := by
    cases s with
    | nil => rfl
    | cons c t => exact List.dropWhile_cons_of_neg (by simp [hfirst c t rfl])
  rw [strip, hd, List.rdropWhile_eq_self_iff]
  intro hne
  rw [hlast _ _ (List.dropLast_concat_getLast hne).symm]
  simp

/-- What counts as less is not found at the ends of what is stripped. It is used both for
    Python's own class and for Rust's narrower one. -/
theorem strip_strip_of_imp {p : Char → Bool} (hp : ∀ c, p c = true → isSpace c = true) (s : Str) :
    ((strip s).dropWhile p).rdropWhile p = strip s := by
  have hfirst : ∀ hne : 0 < (strip s).length, ¬ p ((strip s).get ⟨0, hne⟩) = true := by
    intro hne hw
    have hpre : strip s <+: s.dropWhile isSpace := List.rdropWhile_prefix _ _
    have hpos := Nat.lt_of_lt_of_le hne hpre.length_le
    have hnot := List.dropWhile_get_zero_not isSpace s hpos
    rw [List.get_eq_getElem, hpre.getElem hne] at hw
    exact hnot (hp _ hw)
  rw [List.dropWhile_eq_self_iff.mpr hfirst, List.rdropWhile_eq_self_iff]
  intro hne hw
  exact List.rdropWhile_last_not isSpace _ hne (hp _ hw)

@[simp] theorem strip_strip (s : Str) : strip (strip s) = strip s :=
  strip_strip_of_imp (fun _ h => h) s

theorem mem_of_mem_strip {s : Str} {c : Char} (h : c ∈ strip s) : c ∈ s :=
  (List.dropWhile_suffix _).subset ((List.rdropWhile_prefix _ _).subset h)

theorem isDecimal_ne {c d : Char} (h : isDecimal c = true) (hd : isDecimal d = false) : c ≠ d := by
  rintro rfl
  exact absurd h (by simp [hd])

theorem isDecimal_digitChar {n : Nat} (h : n < 10) : isDecimal n.digitChar = true := by
  have : ∀ k : Fin 10, isDecimal (Nat.digitChar k) = true := by decide
  exact this ⟨n, h⟩

theorem decimalValue?_digitChar {n : Nat} (h : n < 10) : decimalValue? n.digitChar = some n := by
  have : ∀ k : Fin 10, decimalValue? (Nat.digitChar k) = some k.val := by decide
  exact this ⟨n, h⟩

theorem int_append_digit (s : Str) {n : Nat} (h : n < 10) :
    int (s ++ [n.digitChar]) = 10 * int s + n := by
  simp [int, List.foldl_append, decimalValue?_digitChar h]

@[simp] theorem int_str (n : Nat) : int (str n) = n := by
  induction n using Nat.strongRecOn with
  | ind n ih =>
    by_cases h : n < 10
    · rw [str, Nat.toDigits_of_lt_base h]
      simpa [int] using int_append_digit [] h
    · rw [str, Nat.toDigits_of_base_le (by omega) (by omega),
        int_append_digit _ (Nat.mod_lt _ (by omega))]
      have := ih (n / 10) (by omega)
      rw [str] at this
      rw [this]
      omega

theorem str_ne_nil (n : Nat) : str n ≠ [] := Nat.toDigits_ne_nil

theorem isDecimal_of_mem_str {n : Nat} : ∀ c ∈ str n, isDecimal c = true := by
  induction n using Nat.strongRecOn with
  | ind n ih =>
    intro c hc
    by_cases h : n < 10
    · rw [str, Nat.toDigits_of_lt_base h, List.mem_singleton] at hc
      exact hc ▸ isDecimal_digitChar h
    · rw [str, Nat.toDigits_of_base_le (by omega) (by omega), List.mem_append,
        List.mem_singleton] at hc
      rcases hc with hc | rfl
      · exact ih (n / 10) (by omega) c hc
      · exact isDecimal_digitChar (Nat.mod_lt _ (by omega))

end Py

/-! ## Rust -/

namespace Rust

/-- `char::is_whitespace`: the Unicode property White_Space. -/
def isWhitespace (c : Char) : Bool :=
  let n := c.toNat
  (9 ≤ n && n ≤ 13) || n = 32 || n = 0x85 || n = 0xA0 || n = 0x1680 ||
    (0x2000 ≤ n && n ≤ 0x200A) || n = 0x2028 || n = 0x2029 || n = 0x202F || n = 0x205F ||
    n = 0x3000

/-- `char::is_control`: general category Cc. -/
def isControl (c : Char) : Bool := c.toNat ≤ 0x1F || (0x7F ≤ c.toNat && c.toNat ≤ 0x9F)

/-- `s.trim_start()`. -/
def trimStart (s : Str) : Str := s.dropWhile isWhitespace

/-- `s.trim_end()`. -/
def trimEnd (s : Str) : Str := s.rdropWhile isWhitespace

/-- `s.trim()`. -/
def trim (s : Str) : Str := trimEnd (trimStart s)

/-- `s.len()`: the number of UTF-8 bytes. -/
def len (s : Str) : Nat := (s.map Char.utf8Size).sum

end Rust

/-- What Python strips and Rust does not trim is a control character. -/
theorem isSpace_white_or_control {c : Char} (h : Py.isSpace c = true) :
    Rust.isWhitespace c = true ∨ Rust.isControl c = true := by
  simp only [Py.isSpace, Rust.isWhitespace, Rust.isControl, Bool.or_eq_true, Bool.and_eq_true,
    decide_eq_true_eq] at h ⊢
  omega

/-- What `trim` leaves alone has nothing white at its ends. -/
theorem Rust.dropWhile_eq_of_trim {s : Str} (h : Rust.trim s = s) :
    s.dropWhile Rust.isWhitespace = s ∧ s.rdropWhile Rust.isWhitespace = s := by
  have hsuf : s.dropWhile Rust.isWhitespace <:+ s := List.dropWhile_suffix _
  have hpre : Rust.trim s <+: s.dropWhile Rust.isWhitespace := List.rdropWhile_prefix _ _
  have hstart : s.dropWhile Rust.isWhitespace = s := by
    refine hsuf.eq_of_length (Nat.le_antisymm hsuf.length_le ?_)
    have := hpre.length_le
    rwa [h] at this
  refine ⟨hstart, ?_⟩
  have : Rust.trim s = s.rdropWhile Rust.isWhitespace := by
    rw [Rust.trim, Rust.trimEnd, Rust.trimStart, hstart]
  rw [← this, h]

/-- **Trimmed text without control characters has nothing Python would strip.** -/
theorem strip_of_trim {s : Str} (htrim : Rust.trim s = s)
    (hctl : ∀ c ∈ s, Rust.isControl c = false) : Py.strip s = s := by
  obtain ⟨hstart, hend⟩ := Rust.dropWhile_eq_of_trim htrim
  have notSpace : ∀ c ∈ s, Rust.isWhitespace c = false → Py.isSpace c = false := by
    intro c hc hw
    rw [Bool.eq_false_iff]
    intro hsp
    rcases isSpace_white_or_control hsp with hsp | hsp
    · rw [hw] at hsp; exact absurd hsp (by simp)
    · rw [hctl c hc] at hsp; exact absurd hsp (by simp)
  apply Py.strip_eq_self
  · rintro c t rfl
    apply notSpace c (by simp)
    rw [List.dropWhile_cons] at hstart
    split at hstart
    · have := (List.dropWhile_suffix (l := t) Rust.isWhitespace).length_le
      rw [hstart, List.length_cons] at this
      omega
    · rename_i hw
      simpa using hw
  · rintro c t rfl
    apply notSpace c (by simp)
    have hne : t ++ [c] ≠ [] := by simp
    have := List.rdropWhile_eq_self_iff.mp hend hne
    simpa using this

end LocateAnything
