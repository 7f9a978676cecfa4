import LocateAnything.Lib.Derive

/-!
# Derived writers

A `Codec` is a `Reader` together with the writer derived for the same type. One would like to
state that what is written is read back. For a wire format that carries floats this is false:
a float is written in digits, and an infinite one as `null`, from which no float is read. So a
codec says what comes back (`readBack`), which may be another value or none, and that it does
so both from the document and from what an untyped parse keeps of it. That a written value
repeats no key is what makes the two agree, and so is a field of the structure: a codec that
repeated one cannot be built.

`FieldsCodec` does the same for the fields of a record, and `Tagged` for an enumeration whose
variants are records, told apart by a member of the object.

## How a type is given

A type is given once, as a composition of these, and its reader, its writer and the lemma on
what comes back are all read off it. `ReadsBack c p g` says that the values with `p` come
back, as `g` makes them, and the others do not. It is closed under every one of the
constructions (`readsBack_vec`, `readsBack_field`, …), so that the lemma about a whole
document is put together the way the document is, from what is known of its floats.

The fields of a record are built up to a nested pair and then grouped into the struct (`map`),
as the derived code does. The inverse of the grouping is an argument of `map`; without it a
writer would not know where to take a field from.
-/

set_option autoImplicit false

namespace LocateAnything.Json

variable {κ α β : Type} [LinearOrder κ]

/-- A reader with its writer. `readBack` is stated apart from the composition of the two,
    because only it can be computed field by field: the fields of a record are read back one
    at a time. -/
structure Codec (κ α : Type) [LinearOrder κ] extends Reader κ α where
  write : α → Json κ
  /-- What the parser makes of a written value. -/
  readBack : α → Option α
  /-- The untyped parse on the way changes nothing. -/
  parse_value : ∀ d, NoRepeat d → parse d.value = parse d
  noRepeat_write : ∀ a, NoRepeat (write a)
  parse_write : ∀ a, parse (write a) = readBack a

/-! ## Lists -/

theorem mapM_map_congr {γ : Type} {f : α → Option β} {g : γ → α} {h : γ → Option β}
    {xs : List γ} (hfg : ∀ x ∈ xs, f (g x) = h x) : (xs.map g).mapM f = xs.mapM h := by
  induction xs with
  | nil => rfl
  | cons x xs ih =>
    simp only [List.forall_mem_cons] at hfg
    rw [List.map_cons, List.mapM_cons, List.mapM_cons, hfg.1, ih hfg.2]

theorem mapM_eq_some_iff {f : α → Option β} {p : α → Prop} {g : α → β}
    (hf : ∀ x y, f x = some y ↔ p x ∧ g x = y) {xs : List α} : ∀ {ys : List β},
    xs.mapM f = some ys ↔ (∀ x ∈ xs, p x) ∧ xs.map g = ys := by
  induction xs with
  | nil => simp
  | cons x xs ih =>
    intro ys
    simp only [List.mapM_cons, Option.bind_eq_bind, Option.pure_def, Option.bind_eq_some_iff,
      Option.some.injEq, hf, ih, List.forall_mem_cons, List.map_cons]
    constructor
    · rintro ⟨_, ⟨hx, rfl⟩, _, ⟨hxs, rfl⟩, rfl⟩
      exact ⟨⟨hx, hxs⟩, rfl⟩
    · rintro ⟨⟨hx, hxs⟩, rfl⟩
      exact ⟨_, ⟨hx, rfl⟩, _, ⟨hxs, rfl⟩, rfl⟩

/-! ## Values -/

namespace Codec

/-- The types that are kept as they are: what was written comes back. -/
def string : Codec κ κ where
  toReader := .string
  write := .str
  readBack := some
  parse_value d _ := by cases d <;> rfl
  noRepeat_write _ := .str
  parse_write _ := rfl

def bool : Codec κ Bool where
  toReader := .bool
  write := .bool
  readBack := some
  parse_value d _ := by cases d <;> rfl
  noRepeat_write _ := .bool
  parse_write _ := rfl

def uint (bound : Nat) : Codec κ (Fin bound) where
  toReader := .uint bound
  write n := .num (.posInt n)
  readBack := some
  parse_value d _ := by cases d <;> rfl
  noRepeat_write _ := .num
  parse_write n := dif_pos n.isLt

/-- A float, as the number the document has for it; `print` gives the digits that are written for
    what that number was read as, if it is finite. What comes back are the digits as they stand:
    which float they are taken for is the next reader's affair. -/
def float (print : Number → Option Number) : Codec κ Number where
  toReader := .float
  write x := (print x).elim .null .num
  readBack := print
  parse_value d _ := by cases d <;> rfl
  noRepeat_write x := by
    cases print x with
    | none => exact .null
    | some y => exact .num
  parse_write x := by
    show Reader.float.parse ((print x).elim .null .num) = _
    cases print x <;> rfl

variable (c : Codec κ α)

/-- The untyped parse reaches into lists, and changes no element's meaning there. -/
theorem mapM_parse_value {elems : List (Json κ)} (h : ∀ d ∈ elems, NoRepeat d) :
    (elems.map value).mapM c.parse = elems.mapM c.parse :=
  mapM_map_congr fun d hd => c.parse_value d (h d hd)

theorem mapM_parse_write (xs : List α) : (xs.map c.write).mapM c.parse = xs.mapM c.readBack :=
  mapM_map_congr fun x _ => c.parse_write x

theorem vec_parse_value {d : Json κ} (hd : NoRepeat d) :
    (Reader.vec c.toReader).parse d.value = (Reader.vec c.toReader).parse d := by
  cases d with
  | arr elems =>
    rw [value, values_eq]
    exact c.mapM_parse_value hd.elems
  | _ => rfl

theorem noRepeat_arr (xs : List α) : NoRepeat (.arr (xs.map c.write)) := by
  refine .arr fun d hd => ?_
  obtain ⟨x, -, rfl⟩ := List.mem_map.mp hd
  exact c.noRepeat_write x

/-- A list is read back element by element, and lost as a whole if one of them is. -/
def vec : Codec κ (List α) where
  toReader := .vec c.toReader
  write xs := .arr (xs.map c.write)
  readBack xs := xs.mapM c.readBack
  parse_value _ hd := c.vec_parse_value hd
  noRepeat_write := c.noRepeat_arr
  parse_write := c.mapM_parse_write

/-- The length is part of the type, so it is known to be right and checked all the same: the
    list that comes back has lost its type. -/
def tuple (n : Nat) : Codec κ (List.Vector α n) where
  toReader := .tuple n c.toReader
  write v := .arr (v.toList.map c.write)
  readBack v :=
    (v.toList.mapM c.readBack).bind fun xs => if h : xs.length = n then some ⟨xs, h⟩ else none
  parse_value d hd := by
    show (Option.bind _ _) = Option.bind _ _
    rw [c.vec_parse_value hd]
  noRepeat_write v := c.noRepeat_arr v.toList
  parse_write v := by
    show (Option.bind _ _) = Option.bind _ _
    rw [← c.mapM_parse_write]
    rfl

theorem variantName_value {d : Json κ} (hd : NoRepeat d) :
    Reader.variantName d.value = Reader.variantName d := by
  apply Option.ext
  intro s
  rw [Reader.variantName_eq_some_iff, Reader.variantName_eq_some_iff]
  constructor
  · rintro (h | h | h)
    · exact .inl (value_eq_str.mp h)
    · obtain ⟨v, rfl, hv⟩ := Reader.value_eq_singleton hd h
      rw [value_eq_null.mp hv]
      exact .inr (.inl rfl)
    · obtain ⟨v, rfl, hv⟩ := Reader.value_eq_singleton hd h
      have hnr : NoRepeat v := hd.members (s, v) (by simp)
      rw [Reader.value_eq_empty hnr hv]
      exact .inr (.inr rfl)
  · rintro (rfl | rfl | rfl)
    · exact .inl rfl
    · exact .inr (.inl rfl)
    · exact .inr (.inr rfl)

/-- Of an enumeration's names no two are equal, so a name finds its own variant first. -/
theorem find?_name {all : List α} {name : α → κ} (hname : Function.Injective name) {a : α}
    (ha : a ∈ all) : (all.find? fun b => name b = name a) = some a := by
  induction all with
  | nil => exact absurd ha (by simp)
  | cons b all ih =>
    rw [List.find?_cons]
    by_cases hb : b = a
    · simp [hb]
    · have hne : ¬ name b = name a := fun h => hb (hname h)
      rw [decide_eq_false hne]
      exact ih ((List.mem_cons.mp ha).resolve_left (Ne.symm hb))

/-- An enumeration of plain names. That the list holds every variant is what makes each of
    them readable. -/
def variant (all : List α) (name : α → κ) (hall : ∀ a, a ∈ all)
    (hname : Function.Injective name) : Codec κ α where
  toReader := .variant all name
  write a := .str (name a)
  readBack := some
  parse_value d hd := by
    show (Option.bind _ _) = Option.bind _ _
    rw [variantName_value hd]
  noRepeat_write _ := .str
  parse_write a := find?_name hname (hall a)

/-- The values a writer keeps readable, and what they come back as. As an `iff` for every
    result, so that it says of the other values that nothing comes back. -/
def ReadsBack (c : Codec κ α) (p : α → Prop) (g : α → α) : Prop :=
  ∀ a b, c.readBack a = some b ↔ p a ∧ g a = b

variable {c} {p : α → Prop} {g : α → α}

theorem readsBack_self (h : ∀ a, c.readBack a = some a) : c.ReadsBack (fun _ => True) id := by
  intro a b
  rw [h, Option.some.injEq, true_and, id_eq]

theorem readsBack_string : (string (κ := κ)).ReadsBack (fun _ => True) id :=
  readsBack_self fun _ => rfl

theorem ReadsBack.congr {p' : α → Prop} {g' : α → α} (h : c.ReadsBack p g)
    (hp : ∀ a, p a ↔ p' a) (hg : ∀ a, g a = g' a) : c.ReadsBack p' g' := by
  intro a b
  rw [h, hp, hg]

theorem readsBack_vec (h : c.ReadsBack p g) :
    c.vec.ReadsBack (fun xs => ∀ x ∈ xs, p x) (List.map g) :=
  fun _ _ => mapM_eq_some_iff h

theorem readsBack_tuple {n : Nat} (h : c.ReadsBack p g) :
    (c.tuple n).ReadsBack (fun v => ∀ x ∈ v.toList, p x) (List.Vector.map g) := by
  intro v w
  show (Option.bind _ _) = some w ↔ _
  rw [Option.bind_eq_some_iff]
  simp only [mapM_eq_some_iff h]
  constructor
  · rintro ⟨xs, ⟨hp, rfl⟩, hw⟩
    rw [dif_pos (by simp)] at hw
    exact ⟨hp, by rw [← Option.some.inj hw]; exact List.Vector.eq _ _ (by simp)⟩
  · rintro ⟨hp, rfl⟩
    refine ⟨v.toList.map g, ⟨hp, rfl⟩, ?_⟩
    rw [dif_pos (by simp)]
    exact congrArg some (List.Vector.eq _ _ (by simp))

end Codec

/-! ## Records -/

theorem zip_map_value (names : List κ) (xs : List (Json κ)) :
    (names.zip xs).map (fun m => (m.1, m.2.value)) = names.zip (xs.map value) := by
  rw [List.zip_map_right]
  rfl

/-- The fields of an object are the untyped values of the fields of the document. The untyped
    parse brings the members into another order, which the fields, looked up by name, do not
    notice. -/
theorem fieldValues_value {names : List κ} (hn : names.Nodup) {members : List (κ × Json κ)}
    (hd : NoRepeat (.obj members)) :
    fieldValues names (toMap (entries members)) = (fieldValues names members).map
      (List.map value) := by
  apply Option.ext
  intro ys
  rw [fieldValues_eq_some_iff hn, Option.map_eq_some_iff]
  simp only [fieldValues_eq_some_iff hn]
  constructor
  · rintro ⟨hlen, hp⟩
    obtain ⟨members', hp', hz⟩ := perm_of_map_perm ((value_obj_perm hd).symm.trans hp)
    have hkeys : members'.map Prod.fst = names := by
      have := congrArg (List.map Prod.fst) hz
      rw [zip_keys hlen, List.map_map] at this
      exact this.symm
    have hvals : ys = (members'.map Prod.snd).map value := by
      have := congrArg (List.map Prod.snd) hz
      rw [List.map_snd_zip (by omega), List.map_map] at this
      rw [this, List.map_map]
      rfl
    refine ⟨members'.map Prod.snd, ⟨by rw [← hkeys]; simp, ?_⟩, hvals.symm⟩
    rw [← List.zip_of_prod hkeys rfl]
    exact hp'
  · rintro ⟨xs, ⟨hlen, hp⟩, rfl⟩
    refine ⟨by simpa using hlen, ?_⟩
    rw [← zip_map_value]
    exact (value_obj_perm hd).trans (hp.map _)

/-- A record with its writer, before it has been made into a document: the same fields may
    stand alone, or next to others in a struct that flattens them. -/
structure FieldsCodec (κ α : Type) [LinearOrder κ] extends Fields κ α where
  /-- The values of the fields, in declaration order. -/
  values : α → List (Json κ)
  readBack : α → Option α
  build_value : ∀ xs, (∀ x ∈ xs, NoRepeat x) → build (xs.map value) = build xs
  noRepeat_values : ∀ a, ∀ x ∈ values a, NoRepeat x
  values_length : ∀ a, (values a).length = types.length
  build_values : ∀ a, build (values a) = readBack a

namespace FieldsCodec

/-- No more fields. -/
def done : FieldsCodec κ Unit where
  toFields := .done
  values _ := []
  readBack := some
  build_value xs _ := by cases xs <;> rfl
  noRepeat_values _ x hx := absurd hx (by simp)
  values_length _ := rfl
  build_values _ := rfl

/-- One field in front of others. The pair is what the fields build; the struct comes with
    `map`. -/
def field (name : κ) (c : Codec κ α) (rest : FieldsCodec κ β) : FieldsCodec κ (α × β) where
  toFields := .field name c.toReader rest.toFields
  values p := c.write p.1 :: rest.values p.2
  readBack p := (c.readBack p.1).bind fun a => (rest.readBack p.2).map fun b => (a, b)
  build_value xs h := by
    cases xs with
    | nil => rfl
    | cons x xs =>
      simp only [List.forall_mem_cons] at h
      show (Option.bind _ _) = Option.bind _ _
      rw [c.parse_value x h.1, rest.build_value xs h.2]
  noRepeat_values p := by
    simp only [List.forall_mem_cons]
    exact ⟨c.noRepeat_write p.1, rest.noRepeat_values p.2⟩
  values_length p := by
    show (rest.values p.2).length + 1 = rest.types.length + 1
    rw [rest.values_length]
  build_values p := by
    show (Option.bind _ _) = Option.bind _ _
    rw [c.parse_write, rest.build_values]

/-- The fields of a struct, once grouped. `ungroup` takes the struct apart again for the
    writer, and `_hg` is what the reader asks of it. -/
def map (g : α → β) (ungroup : β → α) (_hg : ∀ a, ungroup (g a) = a) (F : FieldsCodec κ α) :
    FieldsCodec κ β where
  toFields := F.toFields.map g
  values b := F.values (ungroup b)
  readBack b := (F.readBack (ungroup b)).map g
  build_value xs h := congrArg (Option.map g) (F.build_value xs h)
  noRepeat_values b := F.noRepeat_values (ungroup b)
  values_length b := F.values_length (ungroup b)
  build_values b := congrArg (Option.map g) (F.build_values (ungroup b))

variable (F : FieldsCodec κ α)

/-- The members of the object a record is written as. -/
def members (a : α) : List (κ × Json κ) := F.names.zip (F.values a)

theorem values_length' (a : α) : (F.values a).length = F.names.length := by
  rw [F.values_length, Fields.names, List.length_map]

theorem members_keys (a : α) : (F.members a).map Prod.fst = F.names :=
  zip_keys (F.values_length' a)

theorem noRepeat_members (hn : F.names.Nodup) (a : α) : NoRepeat (.obj (F.members a)) := by
  refine .obj (by rw [F.members_keys]; exact hn) fun m hm => ?_
  exact F.noRepeat_values a m.2 (List.of_mem_zip hm).2

/-- The members in any order are read back: a writer may have its own. -/
theorem ofMembers_perm (hn : F.names.Nodup) {members : List (κ × Json κ)} {a : α}
    (h : members.Perm (F.members a)) : F.ofMembers members = F.readBack a := by
  rw [Fields.ofMembers, (fieldValues_eq_some_iff hn).mpr ⟨F.values_length' a, h⟩]
  exact F.build_values a

theorem ofMembers_value (hn : F.names.Nodup) {members : List (κ × Json κ)}
    (hd : NoRepeat (.obj members)) :
    F.ofMembers (toMap (entries members)) = F.ofMembers members := by
  rw [Fields.ofMembers, Fields.ofMembers, fieldValues_value hn hd]
  cases hv : fieldValues F.names members with
  | none => rfl
  | some xs =>
    -- the fields are values of members, so they repeat no key either
    have hp := ((fieldValues_eq_some_iff hn).mp hv).2
    refine F.build_value xs fun x hx => ?_
    obtain ⟨name, hname⟩ : ∃ name, (name, x) ∈ F.names.zip xs := by
      have hlen := ((fieldValues_eq_some_iff hn).mp hv).1
      have hsnd : (F.names.zip xs).map Prod.snd = xs := List.map_snd_zip (by omega)
      rw [← hsnd] at hx
      obtain ⟨m, hm, rfl⟩ := List.mem_map.mp hx
      exact ⟨m.1, hm⟩
    exact hd.members (name, x) (hp.mem_iff.mpr hname)

/-- The same of the fields of a record. -/
def ReadsBack (p : α → Prop) (g : α → α) : Prop :=
  ∀ a b, F.readBack a = some b ↔ p a ∧ g a = b

/-- A record as a document of its own, which is read from an object or from an array and
    written as an object. -/
def record (hn : F.names.Nodup) : Codec κ α where
  toReader := F.toFields.record hn
  write a := .obj (F.members a)
  readBack := F.readBack
  parse_value d hd := by
    cases d with
    | obj members => exact F.ofMembers_value hn hd
    | arr elems =>
      rw [value, values_eq]
      exact F.build_value elems hd.elems
    | _ => rfl
  noRepeat_write := F.noRepeat_members hn
  parse_write a := F.ofMembers_perm hn (List.Perm.refl _)

variable {F} {G : FieldsCodec κ β} {c : Codec κ α} {p : α → Prop} {g : α → α} {q : β → Prop}
  {k : β → β}

theorem ReadsBack.congr {p' : α → Prop} {g' : α → α} (h : F.ReadsBack p g)
    (hp : ∀ a, p a ↔ p' a) (hg : ∀ a, g a = g' a) : F.ReadsBack p' g' := by
  intro a b
  rw [h, hp, hg]

theorem readsBack_record (h : F.ReadsBack p g) (hn : F.names.Nodup) :
    (F.record hn).ReadsBack p g := h

theorem readsBack_done : (done (κ := κ)).ReadsBack (fun _ => True) id := by
  intro a b
  show some a = some b ↔ _
  simp

theorem readsBack_field (name : κ) (hc : c.ReadsBack p g) (hG : G.ReadsBack q k) :
    (FieldsCodec.field name c G).ReadsBack (fun x => p x.1 ∧ q x.2) (Prod.map g k) := by
  intro x y
  show (Option.bind _ _) = some y ↔ _
  simp only [Option.bind_eq_some_iff, Option.map_eq_some_iff, hc _ _, hG _ _]
  constructor
  · rintro ⟨_, ⟨hp, rfl⟩, _, ⟨hq, rfl⟩, rfl⟩
    exact ⟨⟨hp, hq⟩, rfl⟩
  · rintro ⟨⟨hp, hq⟩, rfl⟩
    exact ⟨_, ⟨hp, rfl⟩, _, ⟨hq, rfl⟩, rfl⟩

theorem readsBack_map {f : α → β} {ungroup : β → α} (hF : F.ReadsBack p g)
    (hg : ∀ a, ungroup (f a) = a) : (F.map f ungroup hg).ReadsBack (p ∘ ungroup) (f ∘ g ∘ ungroup) := by
  intro b b'
  show Option.map _ _ = some b' ↔ _
  simp only [Option.map_eq_some_iff, hF _ _]
  constructor
  · rintro ⟨_, ⟨hp, rfl⟩, rfl⟩
    exact ⟨hp, rfl⟩
  · rintro ⟨hp, rfl⟩
    exact ⟨_, ⟨hp, rfl⟩, rfl⟩

end FieldsCodec

/-! ## Enumerations -/

/-- An enumeration whose variants are structs. The object of a variant has one more member,
    the tag; its array starts with the tag. `nodup` is a condition on the declaration: a
    struct with a field of the tag's name would write an object with a repeated key. -/
structure Tagged (κ α : Type) [LinearOrder κ] where
  tag : κ
  Variant : Type
  all : List Variant
  name : Variant → κ
  Body : Variant → Type
  fields : ∀ t, FieldsCodec κ (Body t)
  make : ∀ t, Body t → α
  split : α → Σ t, Body t
  mem_all : ∀ t, t ∈ all
  name_injective : Function.Injective name
  nodup : ∀ t, (tag :: (fields t).names).Nodup
  split_make : ∀ t b, split (make t b) = ⟨t, b⟩

theorem fieldValues_perm {names : List κ} (hn : names.Nodup) {m m' : List (κ × Json κ)}
    (h : m.Perm m') : fieldValues names m = fieldValues names m' := by
  apply Option.ext
  intro xs
  rw [fieldValues_eq_some_iff hn, fieldValues_eq_some_iff hn, h.congr_left]

theorem get_toMap_entries {k : κ} {members : List (κ × Json κ)} (hd : NoRepeat (.obj members)) :
    get k (toMap (entries members)) = (get k members).map value := by
  apply Option.ext
  intro v
  rw [get_toMap (by rw [entries_keys]; exact hd.keys), Option.map_eq_some_iff, entries_eq,
    List.mem_map]
  constructor
  · rintro ⟨m, hm, hv⟩
    cases hv
    exact ⟨m.2, (get_eq_some_iff hd.keys).mpr hm, rfl⟩
  · rintro ⟨v', hv', rfl⟩
    exact ⟨(k, v'), (get_eq_some_iff hd.keys).mp hv', rfl⟩

theorem NoRepeat.erase {k : κ} {members : List (κ × Json κ)} (hd : NoRepeat (.obj members)) :
    NoRepeat (.obj (erase k members)) :=
  .obj (erase_nodup hd.keys) fun m hm => hd.members m (List.mem_filter.mp hm).1

/-- To take the tag out of the map is to take it out of the document, up to the order. -/
theorem erase_toMap_perm {k : κ} {members : List (κ × Json κ)} (hd : NoRepeat (.obj members)) :
    (Json.erase k (toMap (entries members))).Perm (toMap (entries (Json.erase k members))) := by
  have hleft := (value_obj_perm hd).filter fun e => decide (e.1 ≠ k)
  rw [List.filter_map] at hleft
  exact hleft.trans (value_obj_perm hd.erase).symm

namespace Tagged

variable (T : Tagged κ α)

def ofName? (s : κ) : Option T.Variant := T.all.find? fun t => T.name t = s

/-- A variant out of the members of its object, which repeats no key. -/
def ofMembers (members : List (κ × Json κ)) : Option α :=
  match get T.tag members with
  | some (.str s) =>
    (T.ofName? s).bind fun t => ((T.fields t).ofMembers (erase T.tag members)).map (T.make t)
  | _ => none

def parse : Json κ → Option α
  | .obj members => if (members.map Prod.fst).Nodup then T.ofMembers members else none
  | .arr (.str s :: xs) =>
    (T.ofName? s).bind fun t => ((T.fields t).build xs).map (T.make t)
  | _ => none

theorem ofName?_name (t : T.Variant) : T.ofName? (T.name t) = some t :=
  Codec.find?_name T.name_injective (T.mem_all t)

theorem ofName?_eq_some_iff {s : κ} {t : T.Variant} : T.ofName? s = some t ↔ s = T.name t := by
  constructor
  · intro h
    have := List.find?_some h
    simpa [eq_comm] using this
  · rintro rfl
    exact T.ofName?_name t

theorem tag_notMem (t : T.Variant) : T.tag ∉ (T.fields t).names := (List.nodup_cons.mp (T.nodup t)).1

theorem names_nodup (t : T.Variant) : (T.fields t).names.Nodup :=
  (List.nodup_cons.mp (T.nodup t)).2

/-- An object is read exactly if it has a tag and the fields of that variant. -/
theorem ofMembers_isSome {members : List (κ × Json κ)} (hm : (members.map Prod.fst).Nodup) :
    (T.ofMembers members).isSome ↔
      ∃ t, Members ((T.tag, (· = .str (T.name t))) :: (T.fields t).types) members := by
  simp only [members_cons_iff hm, ← Fields.ofMembers_isSome (T.names_nodup _)]
  constructor
  · intro h
    unfold ofMembers at h
    split at h
    case h_2 => exact absurd h (by simp)
    rename_i s hs
    cases ht : T.ofName? s with
    | none => simp [ht] at h
    | some t =>
      rw [ht, Option.bind_some, Option.isSome_map] at h
      exact ⟨t, .str s, hs, by rw [T.ofName?_eq_some_iff.mp ht], h⟩
  · rintro ⟨t, _, hs, rfl, h⟩
    simpa only [ofMembers, hs, T.ofName?_name, Option.bind_some, Option.isSome_map] using h

theorem parse_isSome (d : Json κ) : (T.parse d).isSome ↔
    (∃ members t, d = .obj members ∧
      Members ((T.tag, (· = .str (T.name t))) :: (T.fields t).types) members) ∨
    ∃ t xs, d = .arr (.str (T.name t) :: xs) ∧
      List.Forall₂ (fun f x => f.2 x) (T.fields t).types xs := by
  cases d with
  | obj members =>
    rw [parse]
    split
    · rename_i hm
      simp [T.ofMembers_isSome hm]
    · rename_i hm
      simp only [Option.isSome_none, Bool.false_eq_true, false_iff, not_or]
      refine ⟨?_, by simp⟩
      rintro ⟨_, t, hobj, xs, hxs, hp⟩
      cases hobj
      have hlen : xs.length = (T.tag :: (T.fields t).names).length := by
        rw [← hxs.length_eq]
        simp [Fields.names]
      have hkeys := hp.map Prod.fst
      rw [zip_keys (by simpa [Fields.names] using hlen)] at hkeys
      exact hm (hkeys.nodup_iff.mpr (T.nodup t))
  | arr elems =>
    cases elems with
    | nil => simp [parse]
    | cons x xs =>
      cases x with
      | str s =>
        cases ht : T.ofName? s with
        | none =>
          have hno : ∀ t, s ≠ T.name t := fun t hs => by
            rw [T.ofName?_eq_some_iff.mpr hs] at ht
            exact absurd ht (by simp)
          simp [parse, ht, hno]
        | some t =>
          obtain rfl := T.ofName?_eq_some_iff.mp ht
          simp [parse, ht, (T.fields t).build_isSome, T.name_injective.eq_iff]
      | _ => simp [parse]
  | _ => simp [parse]

theorem spells_of_value {d : Json κ} (hd : NoRepeat d) (h : (T.parse d.value).isSome) :
    (T.parse d).isSome := by
  rw [parse_isSome] at h ⊢
  rcases h with ⟨m, t, hm, hfields⟩ | ⟨t, xs, hxs, hfields⟩
  · obtain ⟨members, rfl, rfl⟩ := value_eq_obj.mp hm
    refine .inl ⟨members, t, rfl, hfields.of_value ?_ hd⟩
    intro f hf e he hv
    rcases List.mem_cons.mp hf with rfl | hf
    · exact value_eq_str.mp hv
    · exact (T.fields t).of_value f hf e he hv
  · obtain ⟨elems, rfl, helems⟩ := value_eq_arr.mp hxs
    cases elems with
    | nil => exact absurd helems (by simp)
    | cons e elems =>
      obtain ⟨htag, rfl⟩ := List.cons.inj helems
      rw [List.forall₂_map_right_iff, List.forall₂_iff_zip] at hfields
      refine .inr ⟨t, elems, by rw [value_eq_str.mp htag.symm], List.forall₂_iff_zip.mpr
        ⟨hfields.1, fun {f y} hfy => ?_⟩⟩
      obtain ⟨hf, hy⟩ := List.of_mem_zip hfy
      exact (T.fields t).of_value f hf y (hd.elems y (List.mem_cons_of_mem _ hy)) (hfields.2 hfy)

theorem ofMembers_value {members : List (κ × Json κ)} (hd : NoRepeat (.obj members)) :
    T.ofMembers (toMap (entries members)) = T.ofMembers members := by
  have hget := get_toMap_entries (k := T.tag) hd
  cases hg : get T.tag members with
  | none =>
    rw [hg] at hget
    simp only [ofMembers, hg, hget, Option.map_none]
  | some v =>
    rw [hg] at hget
    cases v with
    | str s =>
      simp only [ofMembers, hg, hget, Option.map_some, value]
      -- the tag is a string on both sides, and the members beside it are the same
      refine congrArg _ (funext fun t => congrArg _ ?_)
      rw [← (T.fields t).ofMembers_value (T.names_nodup t) hd.erase, Fields.ofMembers,
        Fields.ofMembers, fieldValues_perm (T.names_nodup t) (erase_toMap_perm hd)]
    | _ => simp only [ofMembers, hg, hget, Option.map_some, value]

theorem parse_value (d : Json κ) (hd : NoRepeat d) : T.parse d.value = T.parse d := by
  cases d with
  | obj members =>
    rw [value, parse, parse, if_pos (toMap_nodup _), if_pos hd.keys, T.ofMembers_value hd]
  | arr elems =>
    cases elems with
    | nil => rfl
    | cons x xs =>
      cases x with
      | str s =>
        simp only [value, values, parse]
        refine congrArg _ (funext fun t => congrArg _ ?_)
        rw [values_eq]
        exact (T.fields t).build_value xs fun x hx => hd.elems x (List.mem_cons_of_mem _ hx)
      | _ => rfl
  | _ => rfl

/-- The members of the object a value is written as: the tag comes first. -/
def members (a : α) : List (κ × Json κ) :=
  (T.tag, .str (T.name (T.split a).1)) :: (T.fields (T.split a).1).members (T.split a).2

def readBack (a : α) : Option α :=
  ((T.fields (T.split a).1).readBack (T.split a).2).map (T.make (T.split a).1)

theorem members_nodup (a : α) : ((T.members a).map Prod.fst).Nodup := by
  rw [members, List.map_cons, FieldsCodec.members_keys]
  exact T.nodup _

theorem noRepeat_members (a : α) : NoRepeat (.obj (T.members a)) := by
  refine .obj (T.members_nodup a) ?_
  rw [members, List.forall_mem_cons]
  exact ⟨.str, ((T.fields _).noRepeat_members (T.names_nodup _) _).members⟩

/-- The order of the members does not matter. -/
theorem ofMembers_congr {m m' : List (κ × Json κ)} (hn : (m'.map Prod.fst).Nodup)
    (h : m.Perm m') : T.ofMembers m = T.ofMembers m' := by
  have hget : get T.tag m = get T.tag m' := by
    apply Option.ext
    intro v
    rw [get_eq_some_iff hn, get_eq_some_iff ((h.map Prod.fst).nodup_iff.mpr hn), h.mem_iff]
  have herase : (erase T.tag m).Perm (erase T.tag m') := h.filter _
  have hfields : ∀ t, (T.fields t).ofMembers (erase T.tag m) =
      (T.fields t).ofMembers (erase T.tag m') := fun t => by
    rw [Fields.ofMembers, Fields.ofMembers, fieldValues_perm (T.names_nodup t) herase]
  simp only [ofMembers, hget, hfields]

theorem ofMembers_members (a : α) : T.ofMembers (T.members a) = T.readBack a := by
  have hrest : erase T.tag (T.members a) = (T.fields (T.split a).1).members (T.split a).2 := by
    rw [members, erase, List.filter_cons_of_neg (by simp)]
    refine List.filter_eq_self.mpr fun e he => ?_
    have hkey := List.mem_map_of_mem (f := Prod.fst) he
    rw [FieldsCodec.members_keys] at hkey
    have hne : e.1 ≠ T.tag := fun hk => T.tag_notMem _ (hk ▸ hkey)
    simpa using hne
  have htag : get T.tag (T.members a) = some (.str (T.name (T.split a).1)) := by
    rw [members, get, if_pos rfl]
  simp only [ofMembers, htag, T.ofName?_name, Option.bind_some, hrest,
    (T.fields _).ofMembers_perm (T.names_nodup _) (List.Perm.refl _), readBack]

/-- The enumeration as a document. Everything above is about members, because an object may
    lose the tag or gain another member on its way. -/
def codec : Codec κ α where
  Spells d := (T.parse d).isSome
  parse := T.parse
  parse_isSome _ := Iff.rfl
  of_value _ hd h := T.spells_of_value hd h
  write a := .obj (T.members a)
  readBack := T.readBack
  parse_value := T.parse_value
  noRepeat_write := T.noRepeat_members
  parse_write a := by
    rw [parse, if_pos (T.members_nodup a), T.ofMembers_members]

end Tagged

end LocateAnything.Json
