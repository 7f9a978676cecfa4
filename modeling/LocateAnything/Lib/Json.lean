import Mathlib.Data.List.Lex
import Mathlib.Data.List.Perm.Basic
import Mathlib.Data.Rat.Defs
import Mathlib.Data.Vector.Basic

/-!
# JSON documents, JSON values and derived parsers

A *document* is what the text says: objects are lists of members, and a member may be repeated.
A *value* is what an untyped parse keeps of it (`Json.value`): objects are maps, filled in the
order of the document, so a repeated member survives as its last copy.

The derived parsers read a document into a type: a record is read from an object with exactly
its fields, or from an array of them in declaration order. What a parser accepts is stated apart
from it, as a predicate on documents (`Members`, `IsRecord`, …), and each parser has one lemma
saying that it succeeds exactly there.
-/

set_option autoImplicit false

namespace LocateAnything

/-- A JSON number, as the reader sorts them. -/
inductive Json.Number where
  | posInt (n : Nat)
  /-- `-n` -/
  | negInt (n : Nat)
  | float (x : ℚ)
  deriving DecidableEq

inductive Json (κ : Type) where
  | null
  | bool (b : Bool)
  | num (x : Json.Number)
  | str (s : κ)
  | arr (elems : List (Json κ))
  | obj (members : List (κ × Json κ))

namespace Json

variable {κ α β : Type}

/-- No object of the document repeats a key, at whatever depth. It is what separates a
    document from its value. -/
inductive NoRepeat : Json κ → Prop where
  | null : NoRepeat null
  | bool {b : Bool} : NoRepeat (bool b)
  | num {x : Number} : NoRepeat (num x)
  | str {s : κ} : NoRepeat (str s)
  | arr {elems : List (Json κ)} : (∀ d ∈ elems, NoRepeat d) → NoRepeat (arr elems)
  | obj {members : List (κ × Json κ)} : (members.map Prod.fst).Nodup →
      (∀ m ∈ members, NoRepeat m.2) → NoRepeat (obj members)

theorem NoRepeat.elems {elems : List (Json κ)} (h : NoRepeat (.arr elems)) :
    ∀ d ∈ elems, NoRepeat d := by
  cases h with
  | arr h => exact h

theorem NoRepeat.keys {members : List (κ × Json κ)} (h : NoRepeat (.obj members)) :
    (members.map Prod.fst).Nodup := by
  cases h with
  | obj h _ => exact h

theorem NoRepeat.members {members : List (κ × Json κ)} (h : NoRepeat (.obj members)) :
    ∀ m ∈ members, NoRepeat m.2 := by
  cases h with
  | obj _ h => exact h

/-! ## Maps, as lists of entries -/

/-- Two tables of the same distinct keys are equal once the entries of one are the other's. -/
theorem eq_of_keys_of_subset {m : List (κ × α)} : ∀ {m' : List (κ × α)},
    m.map Prod.fst = m'.map Prod.fst → (m'.map Prod.fst).Nodup → m ⊆ m' → m = m' := by
  induction m with
  | nil => intro m' hk _ _; exact (List.map_eq_nil_iff.mp hk.symm).symm
  | cons e m ih =>
    intro m' hk hn hsub
    cases m' with
    | nil => exact absurd hk (by simp)
    | cons e' m' =>
      simp only [List.map_cons, List.cons.injEq, List.nodup_cons] at hk hn
      -- a key of the tail is not the head's, so the tails correspond
      have htail : m ⊆ m' := by
        intro x hx
        rcases List.mem_cons.mp (hsub (List.mem_cons_of_mem _ hx)) with rfl | hx'
        · exact absurd (hk.2 ▸ List.mem_map_of_mem hx) hn.1
        · exact hx'
      have hhead : e = e' := by
        rcases List.mem_cons.mp (hsub List.mem_cons_self) with he | he
        · exact he
        · exact absurd (hk.1 ▸ List.mem_map_of_mem he) hn.1
      rw [hhead, ih hk.2 hn.2 htail]

section Map
variable [LinearOrder κ]

/-- Insert into an ordered map: an entry under the same key is replaced. The last copy of a
    repeated key is the one that stays, which is what `serde_json`'s map and Python's dict
    have in common. -/
def insert (k : κ) (v : α) : List (κ × α) → List (κ × α)
  | [] => [(k, v)]
  | (k', v') :: m =>
    if k < k' then (k, v) :: (k', v') :: m
    else if k = k' then (k, v) :: m
    else (k', v') :: insert k v m

def get (k : κ) : List (κ × α) → Option α
  | [] => none
  | (k', v) :: m => if k = k' then some v else get k m

/-- The map a list of entries fills, from the left. -/
def toMap (entries : List (κ × α)) : List (κ × α) :=
  entries.foldl (fun m e => insert e.1 e.2 m) []

/-- Take a key out of a map. -/
def erase (k : κ) (m : List (κ × α)) : List (κ × α) := m.filter fun e => e.1 ≠ k

theorem get_eq_some_iff {k : κ} {v : α} {m : List (κ × α)} (h : (m.map Prod.fst).Nodup) :
    get k m = some v ↔ (k, v) ∈ m := by
  induction m with
  | nil => simp [get]
  | cons e m ih =>
    obtain ⟨k', v'⟩ := e
    simp only [List.map_cons, List.nodup_cons, List.mem_map, not_exists, not_and] at h
    rw [get, List.mem_cons, Prod.mk.injEq]
    by_cases hk : k = k'
    · subst hk
      have hno : (k, v) ∉ m := fun hm => h.1 (k, v) hm rfl
      simp [hno, eq_comm]
    · simp [hk, ih h.2]

theorem insert_perm {k : κ} {v : α} {m : List (κ × α)} (h : k ∉ m.map Prod.fst) :
    (insert k v m).Perm ((k, v) :: m) := by
  induction m with
  | nil => exact List.Perm.refl _
  | cons e m ih =>
    obtain ⟨k', v'⟩ := e
    simp only [List.map_cons, List.mem_cons, not_or] at h
    rw [insert]
    split
    · exact List.Perm.refl _
    · rw [if_neg h.1]
      exact ((ih h.2).cons _).trans (List.Perm.swap _ _ _)

/-- Filling a map with entries of distinct keys keeps all of them. -/
theorem foldl_insert_perm {entries : List (κ × α)} : ∀ {m : List (κ × α)},
    ((m ++ entries).map Prod.fst).Nodup →
    (entries.foldl (fun m e => insert e.1 e.2 m) m).Perm (m ++ entries) := by
  induction entries with
  | nil => intro m _; simp
  | cons e entries ih =>
    intro m h
    have hmid : (e :: m ++ entries).Perm (m ++ e :: entries) := List.perm_middle.symm
    have hnd := (hmid.map Prod.fst).nodup_iff.mpr h
    have hfresh : e.1 ∉ m.map Prod.fst := by
      simp only [List.cons_append, List.map_cons, List.nodup_cons, List.map_append,
        List.mem_append, not_or] at hnd
      exact hnd.1.1
    have hins := insert_perm (v := e.2) hfresh
    have happ : (insert e.1 e.2 m ++ entries).Perm (m ++ e :: entries) :=
      (hins.append_right entries).trans hmid
    exact (ih ((happ.map Prod.fst).nodup_iff.mpr h)).trans happ

theorem toMap_perm {entries : List (κ × α)} (h : (entries.map Prod.fst).Nodup) :
    (toMap entries).Perm entries :=
  foldl_insert_perm (m := []) h

/-- The keys of a map are in order. -/
def Ordered (m : List (κ × α)) : Prop := m.Pairwise fun a b => a.1 < b.1

theorem mem_keys_insert {k k' : κ} {v : α} {m : List (κ × α)}
    (h : k' ∈ (insert k v m).map Prod.fst) : k' = k ∨ k' ∈ m.map Prod.fst := by
  induction m with
  | nil => simpa [insert] using h
  | cons e m ih =>
    obtain ⟨k₀, v₀⟩ := e
    rw [insert] at h
    split at h
    · simpa using h
    · split at h
      · rename_i hk
        simp only [List.map_cons, List.mem_cons] at h ⊢
        exact h.imp_right .inr
      · simp only [List.map_cons, List.mem_cons] at h ⊢
        rcases h with h | h
        · exact .inr (.inl h)
        · exact (ih h).imp_right .inr

theorem Ordered.insert {k : κ} {v : α} {m : List (κ × α)} (h : Ordered m) :
    Ordered (insert k v m) := by
  induction m with
  | nil => exact List.pairwise_singleton _ _
  | cons e m ih =>
    obtain ⟨k', v'⟩ := e
    obtain ⟨hhead, htail⟩ := List.pairwise_cons.mp h
    rw [Json.insert]
    split
    · rename_i hlt
      refine List.pairwise_cons.mpr ⟨fun x hx => ?_, h⟩
      rcases List.mem_cons.mp hx with rfl | hx
      · exact hlt
      · exact lt_trans hlt (hhead x hx)
    · split
      · rename_i hk
        subst hk
        exact List.pairwise_cons.mpr ⟨hhead, htail⟩
      · rename_i hnlt hne
        have hgt : k' < k := lt_of_le_of_ne (not_lt.mp hnlt) (Ne.symm hne)
        refine List.pairwise_cons.mpr ⟨fun x hx => ?_, ih htail⟩
        rcases mem_keys_insert (List.mem_map_of_mem (f := Prod.fst) hx) with hxk | hxm
        · exact hxk ▸ hgt
        · obtain ⟨y, hy, hyx⟩ := List.mem_map.mp hxm
          exact hyx ▸ hhead y hy

theorem foldl_insert_ordered {entries : List (κ × α)} : ∀ {m : List (κ × α)}, Ordered m →
    Ordered (entries.foldl (fun m e => insert e.1 e.2 m) m) := by
  induction entries with
  | nil => intro m h; exact h
  | cons e entries ih => intro m h; exact ih h.insert

theorem toMap_nodup (entries : List (κ × α)) : ((toMap entries).map Prod.fst).Nodup := by
  have h : Ordered (toMap entries) := foldl_insert_ordered List.Pairwise.nil
  exact (List.pairwise_map.mpr h).imp fun hlt => ne_of_lt hlt

theorem get_toMap {k : κ} {v : α} {entries : List (κ × α)} (h : (entries.map Prod.fst).Nodup) :
    get k (toMap entries) = some v ↔ (k, v) ∈ entries := by
  rw [get_eq_some_iff (toMap_nodup entries), (toMap_perm h).mem_iff]

theorem get_erase {k k' : κ} {m : List (κ × α)} (h : k ≠ k') : get k (erase k' m) = get k m := by
  induction m with
  | nil => rfl
  | cons e m ih =>
    obtain ⟨k₀, v⟩ := e
    by_cases hk : k₀ = k'
    · subst hk
      have : erase k₀ ((k₀, v) :: m) = erase k₀ m := by simp [erase]
      rw [this, ih, get, if_neg h]
    · have : erase k' ((k₀, v) :: m) = (k₀, v) :: erase k' m := by simp [erase, hk]
      rw [this, get, get, ih]

theorem erase_eq_self {k : κ} {m : List (κ × α)} (h : k ∉ m.map Prod.fst) : erase k m = m := by
  refine List.filter_eq_self.mpr fun e he => ?_
  have : e.1 ≠ k := fun hk => h (hk ▸ List.mem_map_of_mem he)
  simpa using this

theorem erase_nodup {k : κ} {m : List (κ × α)} (h : (m.map Prod.fst).Nodup) :
    ((erase k m).map Prod.fst).Nodup :=
  h.sublist (List.filter_sublist.map Prod.fst)

theorem perm_cons_erase {k : κ} {v : α} {m : List (κ × α)} (hn : (m.map Prod.fst).Nodup)
    (h : (k, v) ∈ m) : m.Perm ((k, v) :: erase k m) := by
  obtain ⟨p, q, rfl⟩ := List.append_of_mem h
  have hmid : (p ++ (k, v) :: q).Perm ((k, v) :: (p ++ q)) := List.perm_middle
  have hfresh : k ∉ (p ++ q).map Prod.fst := by
    have := (hmid.map Prod.fst).nodup_iff.mp hn
    exact (List.nodup_cons.mp this).1
  have herase : erase k (p ++ (k, v) :: q) = erase k (p ++ q) := by simp [erase]
  rw [herase, erase_eq_self hfresh]
  exact hmid

end Map

/-! ## The untyped parse -/

section Value
variable [LinearOrder κ]

mutual

/-- **What an untyped parse keeps of a document.** -/
def value : Json κ → Json κ
  | arr elems => arr (values elems)
  | obj members => obj (toMap (entries members))
  | null => null
  | bool b => bool b
  | num x => num x
  | str s => str s

def values : List (Json κ) → List (Json κ)
  | [] => []
  | d :: elems => d.value :: values elems

def entries : List (κ × Json κ) → List (κ × Json κ)
  | [] => []
  | (k, d) :: members => (k, d.value) :: entries members

end

theorem values_eq (elems : List (Json κ)) : values elems = elems.map value := by
  induction elems with
  | nil => rfl
  | cons d elems ih => rw [values, ih, List.map_cons]

theorem entries_eq (members : List (κ × Json κ)) :
    entries members = members.map fun m => (m.1, m.2.value) := by
  induction members with
  | nil => rfl
  | cons m members ih => rw [entries, ih, List.map_cons]

theorem entries_keys (members : List (κ × Json κ)) :
    (entries members).map Prod.fst = members.map Prod.fst := by
  simp [entries_eq, List.map_map, Function.comp_def]

/-- A document without repeats loses nothing but the order of its members. -/
theorem value_obj_perm {members : List (κ × Json κ)} (h : NoRepeat (obj members)) :
    (toMap (entries members)).Perm (members.map fun m => (m.1, m.2.value)) := by
  rw [← entries_eq]
  exact toMap_perm (by rw [entries_keys]; exact h.keys)

end Value

end Json

end LocateAnything
