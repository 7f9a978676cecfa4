import LocateAnything.Lib.Json

/-!
# Derived parsers

A `Reader` parses a JSON value into a type. It carries the predicate of the documents that
spell a value of the type, with the two facts every use of it needs: the parser succeeds
exactly on these documents, and the detour over an untyped parse accepts nothing more as long
as no key is repeated.

The predicate is what one wants to state and the parser what the code runs; a library that had
only the parser would leave every user to find out what it accepts. That both are given
together, with the proof that they agree, makes a parser for a record out of parsers for its
fields without any further argument, and the same goes for lists, arrays of a fixed length and
enumerations.

The second fact is about a common way of reading JSON: first into an untyped value, then, with
a member taken out or looked at, from the value into the type. The value is not the document.
Objects have become maps, and a repeated key survives as its last copy. So the detour may
accept what the direct parse refuses, and only for documents without repeats is this excluded.

`Fields` are the fields of a record in declaration order. A record is an object with exactly
its fields (unknown, missing and repeated ones are errors) or an array of them in order; using
`Fields` as the tail of another's flattens it.
-/

set_option autoImplicit false

namespace LocateAnything.Json

variable {κ α β γ : Type} [LinearOrder κ]

/-! ## What the untyped parse leaves visible -/

theorem value_eq_str {d : Json κ} {s : κ} : d.value = .str s ↔ d = .str s := by
  cases d <;> simp [value]

theorem value_eq_bool {d : Json κ} {b : Bool} : d.value = .bool b ↔ d = .bool b := by
  cases d <;> simp [value]

theorem value_eq_num {d : Json κ} {x : Number} : d.value = .num x ↔ d = .num x := by
  cases d <;> simp [value]

theorem value_eq_null {d : Json κ} : d.value = .null ↔ d = .null := by
  cases d <;> simp [value]

theorem value_eq_arr {d : Json κ} {xs : List (Json κ)} :
    d.value = .arr xs ↔ ∃ elems, d = .arr elems ∧ xs = elems.map value := by
  cases d <;> simp [value, values_eq, eq_comm]

theorem value_eq_obj {d : Json κ} {m : List (κ × Json κ)} :
    d.value = .obj m ↔ ∃ members, d = .obj members ∧ m = toMap (entries members) := by
  cases d <;> simp [value, eq_comm]

/-! ## Readers -/

/-- A parser, with what it accepts. `Spells` is stated apart from `parse`, so that a theorem
    about documents need not mention a parser. -/
structure Reader (κ α : Type) [LinearOrder κ] where
  /-- The document spells a value of the type. -/
  Spells : Json κ → Prop
  parse : Json κ → Option α
  parse_isSome : ∀ d, (parse d).isSome ↔ Spells d
  of_value : ∀ d, NoRepeat d → Spells d.value → Spells d

namespace Reader

def string : Reader κ κ where
  Spells d := ∃ s, d = .str s
  parse
    | .str s => some s
    | _ => none
  parse_isSome d := by cases d <;> simp
  of_value d _ h := by simpa [value_eq_str] using h

theorem string_parse_eq_some_iff {d : Json κ} {s : κ} : string.parse d = some s ↔ d = .str s := by
  cases d <;> simp [string]

def bool : Reader κ Bool where
  Spells d := ∃ b, d = .bool b
  parse
    | .bool b => some b
    | _ => none
  parse_isSome d := by cases d <;> simp
  of_value d _ h := by simpa [value_eq_bool] using h

/-- A float is read from any number, and kept as the number the document has: which float that
    is taken for is up to the reader of digits, and not to the reader of documents. -/
def float : Reader κ Number where
  Spells d := ∃ x, d = .num x
  parse
    | .num x => some x
    | _ => none
  parse_isSome d := by cases d <;> simp
  of_value d _ h := by simpa [value_eq_num] using h

/-- An unsigned integer below `bound`. A number with a fraction or an exponent is none, even
    where its value would be. -/
def uint (bound : Nat) : Reader κ (Fin bound) where
  Spells d := ∃ n, n < bound ∧ d = .num (.posInt n)
  parse
    | .num (.posInt n) => if h : n < bound then some ⟨n, h⟩ else none
    | _ => none
  parse_isSome d := by
    cases d with
    | num x => cases x <;> simp
    | _ => simp
  of_value d _ h := by simpa [value_eq_num] using h

theorem mapM_isSome (f : α → Option β) (xs : List α) :
    (xs.mapM f).isSome ↔ ∀ x ∈ xs, (f x).isSome := by
  induction xs with
  | nil => simp
  | cons x xs ih =>
    cases hx : f x with
    | none => simp [List.mapM_cons, hx]
    | some y =>
      cases hxs : xs.mapM f with
      | none => simpa [List.mapM_cons, hx, hxs] using ih
      | some ys => simpa [List.mapM_cons, hx, hxs] using ih

theorem mapM_length {f : α → Option β} {xs : List α} : ∀ {ys : List β},
    xs.mapM f = some ys → ys.length = xs.length := by
  induction xs with
  | nil => intro ys h; simp at h; simp [← h]
  | cons x xs ih =>
    intro ys h
    simp only [List.mapM_cons, Option.bind_eq_bind, Option.pure_def, Option.bind_eq_some_iff,
      Option.some.injEq] at h
    obtain ⟨y, _, zs, hzs, rfl⟩ := h
    simp [ih hzs]

/-- `Vec<T>` -/
def vec (r : Reader κ α) : Reader κ (List α) where
  Spells d := ∃ elems, d = .arr elems ∧ ∀ e ∈ elems, r.Spells e
  parse
    | .arr elems => elems.mapM r.parse
    | _ => none
  parse_isSome d := by
    cases d <;> simp [mapM_isSome, r.parse_isSome]
  of_value d hd h := by
    obtain ⟨xs, hxs, hall⟩ := h
    obtain ⟨elems, rfl, rfl⟩ := value_eq_arr.mp hxs
    refine ⟨elems, rfl, fun e he => r.of_value e (hd.elems e he) ?_⟩
    exact hall _ (List.mem_map_of_mem he)

/-- `[T; n]`: the elements are read as a list, and then counted. -/
def tuple (n : Nat) (r : Reader κ α) : Reader κ (List.Vector α n) where
  Spells d := ∃ elems, d = .arr elems ∧ elems.length = n ∧ ∀ e ∈ elems, r.Spells e
  parse d := ((vec r).parse d).bind fun xs => if h : xs.length = n then some ⟨xs, h⟩ else none
  parse_isSome d := by
    cases d with
    | arr elems =>
      have hsome := mapM_isSome r.parse elems
      simp only [r.parse_isSome] at hsome
      cases hm : elems.mapM r.parse with
      | none =>
        rw [hm] at hsome
        have hno : ¬ ∀ e ∈ elems, r.Spells e := fun h => absurd (hsome.mpr h) (by simp)
        simp [vec, hm, hno]
      | some xs =>
        rw [hm] at hsome
        have hall : ∀ e ∈ elems, r.Spells e := hsome.mp rfl
        simp only [vec, hm, Option.bind_some, ← mapM_length hm, Json.arr.injEq, exists_eq_left']
        by_cases hn : xs.length = n
        · exact ⟨fun _ => ⟨hn, hall⟩, fun _ => by rw [dif_pos hn]; rfl⟩
        · simp [hn]
    | _ => simp [vec]
  of_value d hd h := by
    obtain ⟨xs, hxs, hlen, hall⟩ := h
    obtain ⟨elems, rfl, rfl⟩ := value_eq_arr.mp hxs
    refine ⟨elems, rfl, by simpa using hlen, fun e he => r.of_value e (hd.elems e he) ?_⟩
    exact hall _ (List.mem_map_of_mem he)

/-- How the name of a unit variant is written: as a string, or as the key of an object that
    holds nothing else, and nothing but an empty value. -/
def variantName : Json κ → Option κ
  | .str s => some s
  | .obj [(s, .null)] => some s
  | .obj [(s, .obj [])] => some s
  | _ => none

omit [LinearOrder κ] in
theorem variantName_eq_some_iff {d : Json κ} {s : κ} : variantName d = some s ↔
    d = .str s ∨ d = .obj [(s, .null)] ∨ d = .obj [(s, .obj [])] := by
  unfold variantName
  split
  case h_4 h₁ h₂ h₃ =>
    refine ⟨fun h => absurd h (by simp), ?_⟩
    rintro (rfl | rfl | rfl)
    · exact absurd rfl (h₁ s)
    · exact absurd rfl (h₂ s)
    · exact absurd rfl (h₃ s)
  all_goals simp [eq_comm]

/-- One entry is a map whatever its key. -/
theorem value_eq_singleton {d w : Json κ} {k : κ} (hd : NoRepeat d) (h : d.value = .obj [(k, w)]) :
    ∃ v, d = .obj [(k, v)] ∧ v.value = w := by
  obtain ⟨members, rfl, hm⟩ := value_eq_obj.mp h
  have hperm := value_obj_perm hd
  rw [← hm] at hperm
  have hone := List.singleton_perm.mp hperm
  match members with
  | [] => simp at hone
  | (k', v) :: rest =>
    simp only [List.map_cons, List.cons.injEq, Prod.mk.injEq] at hone
    obtain ⟨⟨rfl, rfl⟩, hrest⟩ := hone
    exact ⟨v, by rw [List.map_eq_nil_iff.mp hrest.symm], rfl⟩

theorem value_eq_empty {d : Json κ} (hd : NoRepeat d) (h : d.value = .obj []) : d = .obj [] := by
  obtain ⟨members, rfl, hm⟩ := value_eq_obj.mp h
  have hperm := value_obj_perm hd
  rw [← hm] at hperm
  rw [List.map_eq_nil_iff.mp (List.nil_perm.mp hperm)]

/-- An enumeration of unit variants. -/
def variant (all : List α) (name : α → κ) : Reader κ α where
  Spells d := ∃ a ∈ all, d = .str (name a) ∨ d = .obj [(name a, .null)] ∨
    d = .obj [(name a, .obj [])]
  parse d := (variantName d).bind fun s => all.find? fun a => name a = s
  parse_isSome d := by
    simp only [← variantName_eq_some_iff]
    cases variantName d with
    | none => simp
    | some s =>
      simp only [Option.bind_some, List.find?_isSome, decide_eq_true_eq, Option.some.injEq]
      simp only [eq_comm]
  of_value d hd h := by
    obtain ⟨a, ha, h⟩ := h
    refine ⟨a, ha, ?_⟩
    rcases h with h | h | h
    · exact .inl (value_eq_str.mp h)
    · obtain ⟨v, rfl, hv⟩ := value_eq_singleton hd h
      rw [value_eq_null.mp hv]
      exact .inr (.inl rfl)
    · obtain ⟨v, rfl, hv⟩ := value_eq_singleton hd h
      have hnr : NoRepeat v := hd.members (name a, v) (by simp)
      rw [value_eq_empty hnr hv]
      exact .inr (.inr rfl)

end Reader

/-! ## Records -/

/-- The members of an object are one value of its type for each field, in some order. As a
    permutation, because that is what an object is; whoever needs a list in declaration order
    gets one from it. -/
def Members (types : List (κ × (Json κ → Prop))) (members : List (κ × Json κ)) : Prop :=
  ∃ xs, List.Forall₂ (fun f x => f.2 x) types xs ∧ members.Perm ((types.map Prod.fst).zip xs)

/-- The values of the named fields, in declaration order, of an object that has no others. The
    order is what the fields are built from; this is the only place that looks members up by
    name. -/
def fieldValues (names : List κ) (members : List (κ × Json κ)) : Option (List (Json κ)) :=
  if (members.map Prod.fst).Nodup ∧ ∀ m ∈ members, m.1 ∈ names then
    names.mapM fun name => get name members
  else none

/-- The fields of a record, before it has been decided how the record is written. `build`
    takes their values in declaration order, wherever they have come from. -/
structure Fields (κ α : Type) [LinearOrder κ] where
  types : List (κ × (Json κ → Prop))
  build : List (Json κ) → Option α
  build_isSome : ∀ xs, (build xs).isSome ↔ List.Forall₂ (fun f x => f.2 x) types xs
  of_value : ∀ f ∈ types, ∀ d, NoRepeat d → f.2 d.value → f.2 d

namespace Fields

/-- No more fields. -/
def done : Fields κ Unit where
  types := []
  build
    | [] => some ()
    | _ :: _ => none
  build_isSome xs := by cases xs <;> simp
  of_value f hf := absurd hf (by simp)

/-- One field in front of others. What is built is a pair; `map` makes the struct of it. -/
def field (name : κ) (r : Reader κ α) (rest : Fields κ β) : Fields κ (α × β) where
  types := (name, r.Spells) :: rest.types
  build
    | [] => none
    | x :: xs => (r.parse x).bind fun a => (rest.build xs).map fun b => (a, b)
  build_isSome xs := by
    cases xs with
    | nil => simp
    | cons x xs =>
      rw [List.forall₂_cons, ← rest.build_isSome]
      show _ ↔ r.Spells x ∧ _
      rw [← r.parse_isSome]
      cases hx : r.parse x <;> simp [hx]
  of_value f hf := by
    rcases List.mem_cons.mp hf with rfl | hf
    · exact r.of_value
    · exact rest.of_value f hf

/-- The struct, out of the nested pairs. -/
def map (g : α → β) (F : Fields κ α) : Fields κ β where
  types := F.types
  build xs := (F.build xs).map g
  build_isSome xs := by rw [Option.isSome_map, F.build_isSome]
  of_value := F.of_value

theorem field_build_eq_some {name : κ} {r : Reader κ α} {rest : Fields κ β}
    {xs : List (Json κ)} {p : α × β} (h : (field name r rest).build xs = some p) :
    ∃ x xs', xs = x :: xs' ∧ r.parse x = some p.1 ∧ rest.build xs' = some p.2 := by
  cases xs with
  | nil => exact absurd h (by simp [field])
  | cons x xs =>
    obtain ⟨a, ha, hrest⟩ := Option.bind_eq_some_iff.mp h
    obtain ⟨b, hb, rfl⟩ := Option.map_eq_some_iff.mp hrest
    exact ⟨x, xs, rfl, ha, hb⟩

def names (F : Fields κ α) : List κ := F.types.map Prod.fst

/-- An object with exactly the fields. -/
def ofMembers (F : Fields κ α) (members : List (κ × Json κ)) : Option α :=
  (fieldValues F.names members).bind F.build

end Fields

omit [LinearOrder κ] in
theorem zip_keys {names : List κ} : ∀ {xs : List α}, xs.length = names.length →
    (names.zip xs).map Prod.fst = names := by
  intro xs h
  exact List.map_fst_zip (by omega)

theorem mapM_get_eq_some_iff {members : List (κ × Json κ)} (hm : (members.map Prod.fst).Nodup)
    (names : List κ) : ∀ {xs : List (Json κ)},
    (names.mapM fun name => get name members) = some xs ↔
      xs.length = names.length ∧ ∀ e ∈ names.zip xs, e ∈ members := by
  induction names with
  | nil => intro xs; cases xs <;> simp
  | cons name names ih =>
    intro xs
    cases xs with
    | nil => simp [List.mapM_cons, Option.bind_eq_some_iff]
    | cons x xs =>
      simp only [List.mapM_cons, Option.bind_eq_bind, Option.pure_def, Option.bind_eq_some_iff,
        Option.some.injEq, List.cons.injEq, List.length_cons, List.zip_cons_cons,
        List.forall_mem_cons, Nat.add_right_cancel_iff]
      constructor
      · rintro ⟨_, hx, _, hxs, rfl, rfl⟩
        obtain ⟨hlen, hall⟩ := ih.mp hxs
        exact ⟨hlen, (get_eq_some_iff hm).mp hx, hall⟩
      · rintro ⟨hlen, hx, hall⟩
        exact ⟨x, (get_eq_some_iff hm).mpr hx, xs, ih.mpr ⟨hlen, hall⟩, rfl, rfl⟩

/-- The fields are read off an object whose members are these fields in some order. -/
theorem fieldValues_eq_some_iff {names : List κ} (hn : names.Nodup)
    {members : List (κ × Json κ)} {xs : List (Json κ)} :
    fieldValues names members = some xs ↔
      xs.length = names.length ∧ members.Perm (names.zip xs) := by
  rw [fieldValues]
  constructor
  · intro h
    split at h
    case isFalse => exact absurd h (by simp)
    rename_i hc
    obtain ⟨hlen, hall⟩ := (mapM_get_eq_some_iff hc.1 names).mp h
    have hkeys := zip_keys hlen
    have hz : ((names.zip xs).map Prod.fst).Nodup := by rw [hkeys]; exact hn
    refine ⟨hlen, (List.perm_ext_iff_of_nodup hc.1.of_map hz.of_map).mpr fun e => ⟨fun he => ?_,
      hall e⟩⟩
    -- the field of this name was read from the same member
    obtain ⟨e', he', hk⟩ := List.mem_map.mp (hkeys ▸ hc.2 e he)
    have hv : e'.2 = e.2 := by
      have h₁ := (get_eq_some_iff hc.1).mpr (hall e' he')
      have h₂ := (get_eq_some_iff hc.1).mpr he
      rw [hk, h₂] at h₁
      exact (Option.some.inj h₁).symm
    rwa [← Prod.ext hk hv]
  · rintro ⟨hlen, hp⟩
    have hkeys := (hp.map Prod.fst).trans (List.Perm.of_eq (zip_keys hlen))
    have hm := hkeys.nodup_iff.mpr hn
    rw [if_pos ⟨hm, fun e he => hkeys.mem_iff.mp (List.mem_map_of_mem he)⟩]
    exact (mapM_get_eq_some_iff hm names).mpr ⟨hlen, fun e he => hp.mem_iff.mpr he⟩

/-- **A record is read from an object exactly if the members are its fields.** -/
theorem Fields.ofMembers_isSome {F : Fields κ α} (hn : F.names.Nodup)
    {members : List (κ × Json κ)} :
    (F.ofMembers members).isSome ↔ Members F.types members := by
  rw [ofMembers, Members]
  constructor
  · intro h
    cases hv : fieldValues F.names members with
    | none => simp [hv] at h
    | some xs =>
      obtain ⟨-, hp⟩ := (fieldValues_eq_some_iff hn).mp hv
      rw [hv] at h
      exact ⟨xs, (F.build_isSome xs).mp h, hp⟩
  · rintro ⟨xs, hxs, hp⟩
    have hlen : xs.length = F.names.length := by rw [names, List.length_map, hxs.length_eq]
    rw [(fieldValues_eq_some_iff hn).mpr ⟨hlen, hp⟩]
    exact (F.build_isSome xs).mpr hxs

theorem perm_of_map_perm {f : α → β} {l : List α} {m : List β} (h : (l.map f).Perm m) :
    ∃ l', l.Perm l' ∧ m = l'.map f := by
  have hcomp : Relation.Comp (List.Forall₂ fun a b => f a = b) List.Perm l m := by
    refine ⟨l.map f, ?_, h⟩
    simp [List.forall₂_map_right_iff, List.forall₂_same]
  rw [List.forall₂_comp_perm_eq_perm_comp_forall₂] at hcomp
  obtain ⟨l', hl, hm⟩ := hcomp
  have hmap : List.Forall₂ (· = ·) (l'.map f) m := List.forall₂_map_left_iff.mpr hm
  rw [List.forall₂_eq_eq_eq] at hmap
  exact ⟨l', hl, hmap.symm⟩

/-- The untyped parse makes no member of a document without repeats fit a field it did not fit
    before. -/
theorem Members.of_value {types : List (κ × (Json κ → Prop))} {members : List (κ × Json κ)}
    (htypes : ∀ f ∈ types, ∀ d, NoRepeat d → f.2 d.value → f.2 d)
    (hd : NoRepeat (.obj members)) (h : Members types (toMap (entries members))) :
    Members types members := by
  obtain ⟨xs, hxs, hp⟩ := h
  obtain ⟨members', hp', hz⟩ := perm_of_map_perm ((value_obj_perm hd).symm.trans hp)
  have hlen : xs.length = (types.map Prod.fst).length := by
    rw [List.length_map, hxs.length_eq]
  have hnames : members'.map Prod.fst = types.map Prod.fst := by
    have := congrArg (List.map Prod.fst) hz
    rw [zip_keys hlen, List.map_map] at this
    exact this.symm
  have hvals : xs = (members'.map Prod.snd).map value := by
    have := congrArg (List.map Prod.snd) hz
    rw [List.map_snd_zip (by omega), List.map_map] at this
    rw [this, List.map_map]
    rfl
  subst hvals
  rw [List.forall₂_map_right_iff, List.forall₂_iff_zip] at hxs
  refine ⟨members'.map Prod.snd, List.forall₂_iff_zip.mpr ⟨hxs.1, fun {f y} hfy => ?_⟩, ?_⟩
  · obtain ⟨hf, hy⟩ := List.of_mem_zip hfy
    obtain ⟨m, hm, rfl⟩ := List.mem_map.mp hy
    exact htypes f hf m.2 (hd.members m (hp'.mem_iff.mpr hm)) (hxs.2 hfy)
  · rw [← List.zip_of_prod hnames rfl]
    exact hp'

/-- Members whose values, once parsed untyped, fit the fields; `inOrder` lists them in the order of
    the declaration. -/
theorem Members.of_values {types : List (κ × (Json κ → Prop))}
    {members inOrder : List (κ × Json κ)} (hn : (members.map Prod.fst).Nodup)
    (hp : members.Perm inOrder) (hkeys : inOrder.map Prod.fst = types.map Prod.fst)
    (h : List.Forall₂ (fun f m => f.2 m.2.value) types inOrder) :
    Members types (toMap (entries members)) := by
  have hmap : (toMap (entries members)).Perm (members.map fun m => (m.1, m.2.value)) := by
    rw [← entries_eq]
    exact toMap_perm (by rw [entries_keys]; exact hn)
  refine ⟨inOrder.map fun m => m.2.value, List.forall₂_map_right_iff.mpr h, ?_⟩
  have hzip : (types.map Prod.fst).zip (inOrder.map fun m => m.2.value) =
      inOrder.map fun m => (m.1, m.2.value) := by
    rw [← hkeys, List.zip_map']
  rw [hzip]
  exact hmap.trans (hp.map _)

namespace Fields

/-- A struct: an object with exactly the fields, or an array of them in order. -/
def record (F : Fields κ α) (hn : F.names.Nodup) : Reader κ α where
  Spells d := (∃ members, d = .obj members ∧ Members F.types members) ∨
    ∃ xs, d = .arr xs ∧ List.Forall₂ (fun f x => f.2 x) F.types xs
  parse
    | .obj members => F.ofMembers members
    | .arr xs => F.build xs
    | _ => none
  parse_isSome d := by
    cases d <;> simp [ofMembers_isSome hn, F.build_isSome]
  of_value d hd h := by
    rcases h with ⟨m, hm, hfields⟩ | ⟨xs, hxs, hfields⟩
    · obtain ⟨members, rfl, rfl⟩ := value_eq_obj.mp hm
      exact .inl ⟨members, rfl, hfields.of_value F.of_value hd⟩
    · obtain ⟨elems, rfl, rfl⟩ := value_eq_arr.mp hxs
      rw [List.forall₂_map_right_iff, List.forall₂_iff_zip] at hfields
      refine .inr ⟨elems, rfl, List.forall₂_iff_zip.mpr ⟨hfields.1, fun {f y} hfy => ?_⟩⟩
      obtain ⟨hf, hy⟩ := List.of_mem_zip hfy
      exact F.of_value f hf y (hd.elems y hy) (hfields.2 hfy)

end Fields

theorem members_cons_iff {types : List (κ × (Json κ → Prop))} {k : κ} {p : Json κ → Prop}
    {m : List (κ × Json κ)} (hm : (m.map Prod.fst).Nodup) :
    Members ((k, p) :: types) m ↔
      ∃ v, get k m = some v ∧ p v ∧ Members types (erase k m) := by
  constructor
  · rintro ⟨_, hxs, hp⟩
    cases hxs with
    | cons hv hxs =>
      rename_i v xs
      rw [List.map_cons, List.zip_cons_cons] at hp
      have hmem : (k, v) ∈ m := hp.mem_iff.mpr (by simp)
      refine ⟨v, (get_eq_some_iff hm).mpr hmem, hv, xs, hxs, ?_⟩
      exact ((perm_cons_erase hm hmem).symm.trans hp).cons_inv
  · rintro ⟨v, hl, hv, xs, hxs, hp⟩
    have hmem := (get_eq_some_iff hm).mp hl
    refine ⟨v :: xs, .cons hv hxs, ?_⟩
    rw [List.map_cons, List.zip_cons_cons]
    exact (perm_cons_erase hm hmem).trans (hp.cons _)

end LocateAnything.Json
