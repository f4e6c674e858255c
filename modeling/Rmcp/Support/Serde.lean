import Rmcp.Model.Json
import Mathlib.Data.List.Basic

/-!
# Derived serialization

What `derive(Serialize, Deserialize)` makes of a type, on JSON values. A struct is written as
an object. It is read from an object, whose members may come in any order and among others
that it does not know, or from an array with one element for each field. A flattened part
shares the object of its struct, and is read from the members that the other fields leave. An
untagged union is read as the first of its alternatives that takes the value, an internally
tagged one as the variant that its tag names.

The reader gives no reason when it fails.

Results:
1. `Fields.and_keeps`, `Fields.flatten_keeps`: a struct is read again when each of its parts
   is.
2. `untagged_of_tag`, `untagged_of_needs`: the alternative that reads a value, when they are
   told apart by a constant or by a member they need.
3. `Fields.readsBackAt_and`, `Fields.readsBackAt_flatten`, `Codec.readsBackAt_list`: a value
   comes back as it was exactly when each of its parts does.
-/

namespace Rmcp.Serde

/-- How a type is written and read. -/
structure Codec (α : Type) where
  serialize : α → Value
  deserialize : Value → Option α

variable {α β γ : Type}

namespace Codec

/-- What is written for `a` is read again. -/
def AcceptsAt (c : Codec α) (a : α) : Prop := ∃ a', c.deserialize (c.serialize a) = some a'

/-- What `shape` tells of `a` is kept when `a` is written and read again. -/
def KeepsAt (c : Codec α) (shape : α → β) (a : α) : Prop :=
  ∃ a', c.deserialize (c.serialize a) = some a' ∧ shape a' = shape a

def imap (c : Codec α) (make : α → β) (parts : β → α) : Codec β :=
  ⟨fun b => c.serialize (parts b), fun v => (c.deserialize v).map make⟩

/-! ## Simple types -/

def string : Codec String where
  serialize s := .string s
  deserialize
    | .string s => some s
    | _ => none

def bool : Codec Bool where
  serialize b := .bool b
  deserialize
    | .bool b => some b
    | _ => none

def u32 : Codec UInt32 where
  serialize n := .number (.posInt n.toUInt64)
  deserialize
    | .number (.posInt n) => if n.toNat < UInt32.size then some n.toUInt32 else none
    | _ => none

def i32 : Codec Int32 where
  serialize n :=
    if h : n.toInt64 < 0 then .number (.negInt ⟨n.toInt64, h⟩)
    else .number (.posInt n.toInt64.toUInt64)
  deserialize
    | .number (.posInt n) => if n ≤ 2147483647 then some n.toInt64.toInt32 else none
    | .number (.negInt n) => if -2147483648 ≤ n.val then some n.val.toInt32 else none
    | _ => none

/-- Any value, kept as it is. -/
def value : Codec Value := ⟨id, some⟩

def object : Codec JsonObject where
  serialize o := .object o
  deserialize
    | .object o => some o
    | _ => none

/-- A type with one value, which is written as a constant. -/
def constString (s : String) : Codec Unit where
  serialize _ := .string s
  deserialize
    | .string s' => if s' = s then some () else none
    | _ => none

/-- `Vec`. -/
def list (c : Codec α) : Codec (List α) where
  serialize as := .array (as.map c.serialize)
  deserialize
    | .array vs => vs.mapM c.deserialize
    | _ => none

/-- An enum without data: the name of the variant, or an object with this name as its key. -/
def unitEnum (name : α → String) (variants : List α) : Codec α where
  serialize a := .string (name a)
  deserialize
    | .string s => variants.find? (name · = s)
    | .object [(s, .null)] => variants.find? (name · = s)
    | _ => none

/-- `Option`, where the member is there. -/
def deserializeOption (c : Codec α) : Value → Option (Option α)
  | .null => some none
  | v => (c.deserialize v).map some

theorem deserializeOption_of_ne {c : Codec α} {v : Value} (h : v ≠ .null) :
    c.deserializeOption v = (c.deserialize v).map some := by
  cases v <;> first | rfl | exact absurd rfl h

theorem deserializeOption_eq_some_some {c : Codec α} {v : Value} {a : α} :
    c.deserializeOption v = some (some a) ↔ v ≠ .null ∧ c.deserialize v = some a := by
  by_cases hnull : v = .null
  · simp [hnull, deserializeOption]
  · simp [deserializeOption_of_ne hnull, hnull]

@[simp] theorem deserialize_string (s : String) :
    string.deserialize (string.serialize s) = some s := rfl

@[simp] theorem deserialize_constString (s : String) :
    (constString s).deserialize (.string s) = some () := by
  simp [constString]

theorem deserialize_i32 (n : Int32) : i32.deserialize (i32.serialize n) = some n := by
  simp only [i32]
  by_cases h : n.toInt64 < 0
  · have hle : -2147483648 ≤ n.toInt64 := by
      rw [Int64.le_iff_toInt_le, Int32.toInt_toInt64]
      exact n.le_toInt
    simp [h, hle]
  · have hle : n.toInt64.toUInt64 ≤ 2147483647 := by
      rw [Int64.lt_iff_toInt_lt, Int32.toInt_toInt64] at h
      have hnonneg : 0 ≤ n.toInt64 := by
        rw [Int64.le_iff_toInt_le, Int32.toInt_toInt64]
        exact Int.not_lt.mp h
      rw [UInt64.le_iff_toNat_le, Int64.toNat_toUInt64_of_le hnonneg, Int64.toNatClampNeg,
        Int32.toInt_toInt64]
      have hlt : n.toInt ≤ 2147483647 := n.toInt_le
      exact Int.toNat_le.mpr hlt
    simp [h, hle]
/-- A list is read again, element by element, and what `shape` tells of the elements is
kept. -/
theorem list_keeps {c : Codec α} {shape : α → β} {as : List α} (h : ∀ a ∈ as, c.KeepsAt shape a) :
    c.list.KeepsAt (List.map shape) as := by
  simp only [KeepsAt, list]
  induction as with
  | nil => exact ⟨[], rfl, rfl⟩
  | cons a as ih =>
    obtain ⟨a', ha, hshape⟩ := h a List.mem_cons_self
    obtain ⟨as', has, hshapes⟩ := ih fun b hb => h b (List.mem_cons_of_mem _ hb)
    refine ⟨a' :: as', ?_, by simp [hshape, hshapes]⟩
    simp [List.mapM_cons, ha, has]

/-- A list whose first element is not read is not read. -/
theorem list_rejects {c : Codec α} {v : Value} {vs : List Value} (h : c.deserialize v = none) :
    c.list.deserialize (.array (v :: vs)) = none := by
  simp [list, List.mapM_cons, h]

end Codec

/-! ## Members -/

def keys (o : JsonObject) : List String := o.map (·.1)

/-- The value of the field `name`, if it is there; `none` when it is there twice. -/
def member (name : String) (o : JsonObject) : Option (Option Value) :=
  match o.filter (·.1 = name) with
  | [] => some none
  | [(_, v)] => some (some v)
  | _ => none

/-- The members that the fields `names` leave. -/
def without (names : List String) (o : JsonObject) : JsonObject := o.filter (·.1 ∉ names)

/-- Nothing is taken out where the names are others. -/
theorem without_eq_self {names : List String} {o : JsonObject} (h : ∀ m ∈ o, m.1 ∉ names) :
    without names o = o := by
  rw [without, List.filter_eq_self]
  intro m hm
  simpa using h m hm

theorem without_eq_nil {names : List String} {o : JsonObject} (h : ∀ m ∈ o, m.1 ∈ names) :
    without names o = [] := by
  rw [without, List.filter_eq_nil_iff]
  intro m hm
  simpa using h m hm

theorem without_append {names : List String} {o o' : JsonObject} :
    without names (o ++ o') = without names o ++ without names o' := by
  simp only [without, List.filter_append]

theorem not_mem_keys_without {name : String} {names : List String} {o : JsonObject}
    (h : name ∉ keys o) : name ∉ keys (without names o) := by
  intro hmem
  obtain ⟨m, hm, rfl⟩ := List.mem_map.mp hmem
  exact h (List.mem_map_of_mem (List.mem_of_mem_filter hm))

theorem not_mem_keys_of_without {name : String} {names : List String} {o : JsonObject}
    (h : name ∈ names) : name ∉ keys (without names o) := by
  intro hmem
  obtain ⟨m, hm, rfl⟩ := List.mem_map.mp hmem
  have hnot := (List.mem_filter.mp hm).2
  exact absurd h (by simpa using hnot)

theorem member_without {name : String} {names : List String} {o : JsonObject}
    (h : name ∉ names) : member name (without names o) = member name o := by
  have hfilter : (without names o).filter (·.1 = name) = o.filter (·.1 = name) := by
    rw [without, List.filter_filter]
    refine List.filter_congr fun m _ => ?_
    by_cases hm : m.1 = name <;> simp [hm, h]
  simp only [member, hfilter]

theorem member_of_not_mem {name : String} {o : JsonObject} (h : name ∉ keys o) :
    member name o = some none := by
  have hnone : o.filter (·.1 = name) = [] := by
    rw [List.filter_eq_nil_iff]
    intro m hm heq
    exact h (List.mem_map.mpr ⟨m, hm, by simpa using heq⟩)
  simp only [member, hnone]

/-- A field is read from the members with the names of its struct alone. -/
theorem member_congr {name : String} {names : List String} {o o' : JsonObject}
    (hname : name ∈ names) (h : o.filter (·.1 ∈ names) = o'.filter (·.1 ∈ names)) :
    member name o = member name o' := by
  have hsub : ∀ o : JsonObject,
      (o.filter (·.1 ∈ names)).filter (·.1 = name) = o.filter (·.1 = name) := by
    intro o
    rw [List.filter_filter]
    refine List.filter_congr fun m _ => ?_
    by_cases hm : m.1 = name <;> simp [hm, hname]
  simp only [member, ← hsub o, ← hsub o', h]

/-! ## Structs -/

/-- The fields of a struct. -/
structure Fields (α : Type) where
  names : List String
  serialize : α → JsonObject
  visitMap : JsonObject → Option α
  /-- Takes its elements off the front of an array. -/
  visitSeq : List Value → Option (α × List Value)
  mem_names : ∀ a, ∀ m ∈ serialize a, m.1 ∈ names
  visitMap_congr : ∀ o o', o.filter (·.1 ∈ names) = o'.filter (·.1 ∈ names) →
    visitMap o = visitMap o'

/-- What can be flattened into a struct. -/
structure Flat (α : Type) where
  serialize : α → JsonObject
  deserialize : JsonObject → Option α

/-- A struct. -/
def Codec.struct (f : Fields α) : Codec α where
  serialize a := .object (f.serialize a)
  deserialize
    | .object o => f.visitMap o
    | .array vs =>
      match f.visitSeq vs with
      | some (a, []) => some a
      | _ => none
    | _ => none

@[simp] theorem Codec.serialize_struct (f : Fields α) (a : α) :
    (Codec.struct f).serialize a = .object (f.serialize a) := rfl

@[simp] theorem Codec.deserialize_struct (f : Fields α) (o : JsonObject) :
    (Codec.struct f).deserialize (.object o) = f.visitMap o := rfl

theorem Codec.list_rejects_struct (c : Codec α) (f : Fields β) (b : β) :
    c.list.deserialize ((Codec.struct f).serialize b) = none := rfl

namespace Fields

/-- No fields. -/
def nil : Fields Unit where
  names := []
  serialize _ := []
  visitMap _ := some ()
  visitSeq vs := some ((), vs)
  mem_names _ _ hm := by cases hm
  visitMap_congr _ _ _ := rfl

/-- A field of a type other than `Option`. -/
def required (name : String) (c : Codec α) : Fields α where
  names := [name]
  serialize a := [(name, c.serialize a)]
  visitMap o := (member name o).bind fun v => v.bind c.deserialize
  visitSeq
    | v :: vs => (c.deserialize v).map (·, vs)
    | [] => none
  mem_names a m hm := by
    cases List.mem_singleton.mp hm
    exact List.mem_cons_self
  visitMap_congr o o' h := by rw [member_congr List.mem_cons_self h]

/-- A field of type `Option`, which is missing or null when there is no value. `skip` says
that it is not written then. -/
def option (skip : Bool) (name : String) (c : Codec α) : Fields (Option α) where
  names := [name]
  serialize
    | some a => [(name, c.serialize a)]
    | none => if skip then [] else [(name, .null)]
  visitMap o := (member name o).bind fun v => (v.map c.deserializeOption).getD (some none)
  visitSeq
    | v :: vs => (c.deserializeOption v).map (·, vs)
    | [] => none
  mem_names a m hm := by
    cases a with
    | some a =>
      cases List.mem_singleton.mp hm
      exact List.mem_cons_self
    | none =>
      cases skip
      · cases List.mem_singleton.mp hm
        exact List.mem_cons_self
      · cases hm
  visitMap_congr o o' h := by rw [member_congr List.mem_cons_self h]

/-- `skip_serializing_if = "Option::is_none"`. -/
abbrev optional (name : String) (c : Codec α) : Fields (Option α) := option true name c

abbrev nullable (name : String) (c : Codec α) : Fields (Option α) := option false name c

/-- The fields of `f`, then those of `g`. -/
def and (f : Fields α) (g : Fields β) : Fields (α × β) where
  names := f.names ++ g.names
  serialize ab := f.serialize ab.1 ++ g.serialize ab.2
  visitMap o := (f.visitMap o).bind fun a => (g.visitMap o).map (a, ·)
  visitSeq vs := (f.visitSeq vs).bind fun (a, vs) => (g.visitSeq vs).map fun (b, vs) => ((a, b), vs)
  mem_names ab m hm := by
    rcases List.mem_append.mp hm with hf | hg
    · exact List.mem_append_left _ (f.mem_names _ m hf)
    · exact List.mem_append_right _ (g.mem_names _ m hg)
  visitMap_congr o o' h := by
    have hsub : ∀ names : List String, (∀ n ∈ names, n ∈ f.names ++ g.names) →
        o.filter (·.1 ∈ names) = o'.filter (·.1 ∈ names) := by
      intro names hnames
      have hfilter : ∀ o : JsonObject, o.filter (·.1 ∈ names) =
          (o.filter (·.1 ∈ f.names ++ g.names)).filter (·.1 ∈ names) := by
        intro o
        rw [List.filter_filter]
        refine List.filter_congr fun m _ => ?_
        by_cases hm : m.1 ∈ names
        · simpa [hm] using hnames _ hm
        · simp [hm]
      rw [hfilter o, hfilter o', h]
    rw [f.visitMap_congr o o' (hsub _ fun _ => List.mem_append_left _),
      g.visitMap_congr o o' (hsub _ fun _ => List.mem_append_right _)]

def imap (f : Fields α) (make : α → β) (parts : β → α) : Fields β where
  names := f.names
  serialize b := f.serialize (parts b)
  visitMap o := (f.visitMap o).map make
  visitSeq vs := (f.visitSeq vs).map fun (a, vs) => (make a, vs)
  mem_names b := f.mem_names (parts b)
  visitMap_congr o o' h := by rw [f.visitMap_congr o o' h]

def flat (f : Fields α) : Flat α := ⟨f.serialize, f.visitMap⟩

/-- What is written for `a` is read again. -/
def AcceptsAt (f : Fields α) (a : α) : Prop := ∃ a', f.visitMap (f.serialize a) = some a'

/-- The field `key` with the constant `tag`, then those of `f`. -/
def tagged (key tag : String) (f : Fields α) : Fields α :=
  ((required key (.constString tag)).and f).imap (·.2) fun a => ((), a)

/-- A struct with a flattened part; it is read from objects only. -/
def flatten (f : Fields α) (g : Flat β) : Codec (α × β) where
  serialize ab := .object (f.serialize ab.1 ++ g.serialize ab.2)
  deserialize
    | .object o => (f.visitMap o).bind fun a => (g.deserialize (without f.names o)).map (a, ·)
    | _ => none

end Fields

/-- What `shape` tells of `a` is kept when `a` is written and read again. -/
def Flat.KeepsAt (g : Flat α) (shape : α → β) (a : α) : Prop :=
  ∃ a', g.deserialize (g.serialize a) = some a' ∧ shape a' = shape a

/-- A flattened part, then the fields of a struct. -/
def Flat.followedBy (g : Flat β) (f : Fields α) : Flat (β × α) where
  serialize ba := g.serialize ba.1 ++ f.serialize ba.2
  deserialize o :=
    (g.deserialize (without f.names o)).bind fun b => (f.visitMap o).map (b, ·)

def Flat.imap (g : Flat α) (make : α → β) (parts : β → α) : Flat β :=
  ⟨fun b => g.serialize (parts b), fun o => (g.deserialize o).map make⟩

/-- A struct with a flattened part alone; it is read from objects only. -/
def Codec.flat (g : Flat α) : Codec α where
  serialize a := .object (g.serialize a)
  deserialize
    | .object o => g.deserialize o
    | _ => none

/-- A flattened `Option`: there is no value when the members do not make one. -/
def Flat.option (g : Flat α) : Flat (Option α) where
  serialize a := (a.map g.serialize).getD []
  deserialize o := some (g.deserialize o)

/-! ## What is written is read -/

section Keeps

variable {f : Fields α} {g : Fields β} {c : Codec α} {a a' : α} {b b' : β}

theorem Fields.not_mem_keys (f : Fields α) {a : α} {name : String} (h : name ∉ f.names) :
    name ∉ keys (f.serialize a) := by
  intro hmem
  obtain ⟨m, hm, rfl⟩ := List.mem_map.mp hmem
  exact h (f.mem_names a m hm)

theorem Fields.key_ne (f : Fields α) {a : α} {name : String} (h : name ∉ f.names) :
    ∀ m ∈ f.serialize a, m.1 ≠ name := by
  rintro m hm rfl
  exact h (f.mem_names a m hm)

/-- Members that come after the fields and have other names are not looked at. -/
theorem Fields.visitMap_append (f : Fields α) (o : JsonObject) {extra : JsonObject}
    (h : ∀ m ∈ extra, m.1 ∉ f.names) : f.visitMap (o ++ extra) = f.visitMap o := by
  refine f.visitMap_congr _ _ ?_
  have hnone : extra.filter (·.1 ∈ f.names) = [] := by
    rw [List.filter_eq_nil_iff]
    intro m hm
    simpa using h m hm
  rw [List.filter_append, hnone, List.append_nil]

/-- Members that come before the fields and have other names are not looked at. -/
theorem Fields.visitMap_prepend (f : Fields α) {extra : JsonObject} (o : JsonObject)
    (h : ∀ m ∈ extra, m.1 ∉ f.names) : f.visitMap (extra ++ o) = f.visitMap o := by
  refine f.visitMap_congr _ _ ?_
  have hnone : extra.filter (·.1 ∈ f.names) = [] := by
    rw [List.filter_eq_nil_iff]
    intro m hm
    simpa using h m hm
  rw [List.filter_append, hnone, List.nil_append]

/-- Members with other names can be taken out before. -/
theorem Fields.visitMap_without (f : Fields α) {names : List String} (o : JsonObject)
    (h : ∀ name ∈ f.names, name ∉ names) : f.visitMap (without names o) = f.visitMap o := by
  refine f.visitMap_congr _ _ ?_
  rw [without, List.filter_filter]
  refine List.filter_congr fun m _ => ?_
  by_cases hm : m.1 ∈ f.names
  · simp [hm, h m.1 hm]
  · simp [hm]

theorem Fields.required_keeps (name : String) (h : c.deserialize (c.serialize a) = some a') :
    (Fields.required name c).visitMap ((Fields.required name c).serialize a) = some a' := by
  simp [Fields.required, member, h]

theorem Fields.option_keeps_some {skip : Bool} {name : String} (hne : c.serialize a ≠ .null)
    (h : c.deserialize (c.serialize a) = some a') :
    (Fields.option skip name c).visitMap ((Fields.option skip name c).serialize (some a)) =
      some (some a') := by
  simp [Fields.option, member, Codec.deserializeOption_of_ne hne, h]

theorem Fields.option_keeps_none {skip : Bool} {name : String} :
    (Fields.option skip name c).visitMap ((Fields.option skip name c).serialize none) =
      some none := by
  cases skip <;> simp [Fields.option, member, Codec.deserializeOption]

/-- Fields with different names are read each from its own members. -/
theorem Fields.visitMap_and_serialize (hnames : ∀ name ∈ f.names, name ∉ g.names) :
    (f.and g).visitMap ((f.and g).serialize (a, b)) =
      (f.visitMap (f.serialize a)).bind fun a => (g.visitMap (g.serialize b)).map (a, ·) := by
  have hleft : f.visitMap (f.serialize a ++ g.serialize b) = f.visitMap (f.serialize a) :=
    f.visitMap_append _ fun m hm hmem => hnames _ hmem (g.mem_names b m hm)
  have hright : g.visitMap (f.serialize a ++ g.serialize b) = g.visitMap (g.serialize b) :=
    g.visitMap_prepend _ fun m hm => hnames _ (f.mem_names a m hm)
  simp only [Fields.and, hleft, hright]

theorem Fields.and_keeps (hnames : ∀ name ∈ f.names, name ∉ g.names)
    (hf : f.visitMap (f.serialize a) = some a') (hg : g.visitMap (g.serialize b) = some b') :
    (f.and g).visitMap ((f.and g).serialize (a, b)) = some (a', b') := by
  rw [Fields.visitMap_and_serialize hnames, hf, hg, Option.bind_some, Option.map_some]

theorem Fields.tagged_keeps (key tag : String) (hkey : key ∉ f.names)
    (h : f.visitMap (f.serialize a) = some a') :
    (f.tagged key tag).visitMap ((f.tagged key tag).serialize a) = some a' := by
  have htag : (Fields.required key (.constString tag)).visitMap
      ((Fields.required key (.constString tag)).serialize ()) = some () :=
    Fields.required_keeps key (Codec.deserialize_constString tag)
  have hboth := Fields.and_keeps (by simpa [Fields.required] using hkey) htag h
  simp only [Fields.tagged, Fields.imap, hboth, Option.map_some]

theorem Fields.AcceptsAt.tagged {key tag : String} (h : f.AcceptsAt a) (hkey : key ∉ f.names) :
    (f.tagged key tag).AcceptsAt a := by
  obtain ⟨a', h⟩ := h
  exact ⟨a', Fields.tagged_keeps key tag hkey h⟩

theorem Codec.struct_keeps (h : f.visitMap (f.serialize a) = some a') :
    (Codec.struct f).deserialize ((Codec.struct f).serialize a) = some a' := h

theorem Codec.AcceptsAt.required {name : String} (h : c.AcceptsAt a) :
    (Fields.required name c).AcceptsAt a := by
  obtain ⟨a', h⟩ := h
  exact ⟨a', Fields.required_keeps name h⟩

/-- What is written as null is read as no value. -/
theorem Fields.option_acceptsAt {skip : Bool} {name : String} {v : Option α}
    (h : ∀ a, v = some a → c.AcceptsAt a) : (Fields.option skip name c).AcceptsAt v := by
  cases v with
  | none => exact ⟨none, Fields.option_keeps_none⟩
  | some a =>
    obtain ⟨a', h⟩ := h a rfl
    by_cases hnull : c.serialize a = .null
    · exact ⟨none, by simp [Fields.option, member, hnull, Codec.deserializeOption]⟩
    · exact ⟨some a', Fields.option_keeps_some hnull h⟩

theorem Fields.member_tagged {key tag : String} (hkey : key ∉ f.names) :
    member key ((f.tagged key tag).serialize a) = some (some (.string tag)) := by
  have hnone : (f.serialize a).filter (·.1 = key) = [] := by
    rw [List.filter_eq_nil_iff]
    intro m hm heq
    exact f.key_ne hkey m hm (by simpa using heq)
  simp [Fields.tagged, Fields.imap, Fields.and, Fields.required, Codec.constString, member, hnone]

theorem Fields.without_serialize (f : Fields α) (a : α) {o : JsonObject}
    (h : ∀ m ∈ o, m.1 ∉ f.names) : without f.names (f.serialize a ++ o) = o := by
  rw [without_append, without_eq_nil (f.mem_names a), without_eq_self h, List.nil_append]

theorem Fields.without_append_serialize (f : Fields α) (a : α) {o : JsonObject}
    (h : ∀ m ∈ o, m.1 ∉ f.names) : without f.names (o ++ f.serialize a) = o := by
  rw [without_append, without_eq_nil (f.mem_names a), without_eq_self h, List.append_nil]

theorem Fields.flatten_keeps {g : Flat β} (hnames : ∀ m ∈ g.serialize b, m.1 ∉ f.names)
    (hf : f.visitMap (f.serialize a) = some a') (hg : g.deserialize (g.serialize b) = some b') :
    (f.flatten g).deserialize ((f.flatten g).serialize (a, b)) = some (a', b') := by
  simp [Fields.flatten, f.visitMap_append _ hnames, f.without_serialize a hnames, hf, hg]

theorem Fields.AcceptsAt.flatten {g : Flat β} (ha : f.AcceptsAt a)
    (hb : ∃ b', g.deserialize (g.serialize b) = some b')
    (hnames : ∀ m ∈ g.serialize b, m.1 ∉ f.names) : (f.flatten g).AcceptsAt (a, b) := by
  obtain ⟨a', ha⟩ := ha
  obtain ⟨b', hb⟩ := hb
  exact ⟨(a', b'), Fields.flatten_keeps hnames ha hb⟩

/-- What `shape` tells of the flattened part is kept. -/
theorem Fields.flatten_keepsAt {g : Flat β} {shape : β → γ}
    (hnames : ∀ m ∈ g.serialize b, m.1 ∉ f.names)
    (hf : f.visitMap (f.serialize a) = some a) (hg : g.KeepsAt shape b) :
    ∃ b', (f.flatten g).deserialize ((f.flatten g).serialize (a, b)) = some (a, b') ∧
      shape b' = shape b := by
  obtain ⟨b', hb, hshape⟩ := hg
  exact ⟨b', Fields.flatten_keeps hnames hf hb, hshape⟩

theorem Fields.AcceptsAt.imap {make : α → β} {parts : β → α} (h : f.AcceptsAt (parts b)) :
    (f.imap make parts).AcceptsAt b := by
  obtain ⟨a', h⟩ := h
  exact ⟨make a', by simp [Fields.imap, h]⟩

end Keeps

/-! ## What comes back as it was -/

/-- `a` comes back when it is written and read again. -/
def Codec.ReadsBackAt (c : Codec α) (a : α) : Prop := c.deserialize (c.serialize a) = some a

def Fields.ReadsBackAt (f : Fields α) (a : α) : Prop := f.visitMap (f.serialize a) = some a

def Flat.ReadsBackAt (g : Flat α) (a : α) : Prop := g.deserialize (g.serialize a) = some a

section ReadsBack

variable {f : Fields α} {g : Fields β} {c : Codec α} {a : α} {b : β}

private theorem map_eq_some_iff_parts {make : α → β} {parts : β → α} {x : Option α}
    (hmake : make (parts b) = b) (hparts : ∀ a, parts (make a) = a) :
    x.map make = some b ↔ x = some (parts b) := by
  rw [Option.map_eq_some_iff]
  constructor
  · rintro ⟨a, ha, rfl⟩
    rw [hparts, ha]
  · intro h
    exact ⟨parts b, h, hmake⟩

theorem Codec.readsBackAt_struct : (Codec.struct f).ReadsBackAt a ↔ f.ReadsBackAt a := Iff.rfl

theorem Codec.readsBackAt_flat {g : Flat α} : (Codec.flat g).ReadsBackAt a ↔ g.ReadsBackAt a :=
  Iff.rfl

theorem Codec.readsBackAt_imap {make : α → β} {parts : β → α} (hmake : make (parts b) = b)
    (hparts : ∀ a, parts (make a) = a) :
    (c.imap make parts).ReadsBackAt b ↔ c.ReadsBackAt (parts b) := by
  simp only [ReadsBackAt, imap, map_eq_some_iff_parts hmake hparts]

theorem Codec.readsBackAt_list {as : List α} :
    c.list.ReadsBackAt as ↔ ∀ a ∈ as, c.ReadsBackAt a := by
  simp only [ReadsBackAt, list]
  induction as with
  | nil => simp
  | cons a as ih =>
    rw [List.map_cons, List.mapM_cons, List.forall_mem_cons, ← ih]
    simp [Option.bind_eq_some_iff]

theorem Fields.readsBackAt_required {name : String} :
    (Fields.required name c).ReadsBackAt a ↔ c.ReadsBackAt a := by
  simp [ReadsBackAt, Codec.ReadsBackAt, required, member]

/-- What is written as null comes back as no value. -/
theorem Fields.readsBackAt_option {skip : Bool} {name : String} {v : Option α} :
    (Fields.option skip name c).ReadsBackAt v ↔
      ∀ a, v = some a → c.serialize a ≠ .null ∧ c.ReadsBackAt a := by
  cases v with
  | none => exact iff_of_true Fields.option_keeps_none (by simp)
  | some a =>
    by_cases hnull : c.serialize a = .null
    · simp [ReadsBackAt, option, member, hnull, Codec.deserializeOption]
    · simp [ReadsBackAt, Codec.ReadsBackAt, option, member, Codec.deserializeOption_of_ne hnull,
        hnull]

theorem Fields.readsBackAt_and (hnames : ∀ name ∈ f.names, name ∉ g.names) :
    (f.and g).ReadsBackAt (a, b) ↔ f.ReadsBackAt a ∧ g.ReadsBackAt b := by
  simp only [ReadsBackAt, visitMap_and_serialize hnames]
  simp [Option.bind_eq_some_iff]

theorem Fields.readsBackAt_imap {make : α → β} {parts : β → α} (hmake : make (parts b) = b)
    (hparts : ∀ a, parts (make a) = a) :
    (f.imap make parts).ReadsBackAt b ↔ f.ReadsBackAt (parts b) := by
  simp only [ReadsBackAt, imap, map_eq_some_iff_parts hmake hparts]

theorem Fields.readsBackAt_flatten {g : Flat β} (hnames : ∀ m ∈ g.serialize b, m.1 ∉ f.names) :
    (f.flatten g).ReadsBackAt (a, b) ↔ f.ReadsBackAt a ∧ g.ReadsBackAt b := by
  simp only [Codec.ReadsBackAt, ReadsBackAt, Flat.ReadsBackAt, flatten,
    f.visitMap_append _ hnames, f.without_serialize a hnames]
  simp [Option.bind_eq_some_iff]

theorem Fields.readsBackAt_tagged {key tag : String} (hkey : key ∉ f.names) :
    (f.tagged key tag).ReadsBackAt a ↔ f.ReadsBackAt a := by
  have hnames : ∀ name ∈ (Fields.required key (.constString tag)).names, name ∉ f.names := by
    simpa [Fields.required] using hkey
  refine (readsBackAt_imap rfl fun _ => rfl).trans ?_
  rw [readsBackAt_and hnames, readsBackAt_required]
  exact and_iff_right (Codec.deserialize_constString tag)

theorem Flat.readsBackAt_imap {g : Flat α} {make : α → β} {parts : β → α}
    (hmake : make (parts b) = b) (hparts : ∀ a, parts (make a) = a) :
    (g.imap make parts).ReadsBackAt b ↔ g.ReadsBackAt (parts b) := by
  simp only [ReadsBackAt, imap, map_eq_some_iff_parts hmake hparts]

theorem Flat.readsBackAt_followedBy {g : Flat β}
    (hnames : ∀ m ∈ g.serialize b, m.1 ∉ f.names) :
    (g.followedBy f).ReadsBackAt (b, a) ↔ g.ReadsBackAt b ∧ f.ReadsBackAt a := by
  simp only [ReadsBackAt, Fields.ReadsBackAt, followedBy, f.visitMap_prepend _ hnames,
    f.without_append_serialize a hnames]
  simp [Option.bind_eq_some_iff]

theorem Codec.readsBack_strings (strings : List String) : Codec.string.list.ReadsBackAt strings :=
  Codec.readsBackAt_list.mpr fun _ _ => rfl

theorem Codec.readsBack_u32 (n : UInt32) : Codec.u32.ReadsBackAt n := by
  have hlt : n.toNat < UInt32.size := n.toNat_lt
  simp [Codec.ReadsBackAt, Codec.u32, hlt]

section Optional

variable {name : String}

/-- A value that is never written as null comes back when it does so by itself. -/
theorem Fields.readsBackAt_optional (hnull : ∀ a, c.serialize a ≠ .null) {v : Option α} :
    (Fields.optional name c).ReadsBackAt v ↔ ∀ a, v = some a → c.ReadsBackAt a := by
  rw [Fields.readsBackAt_option]
  exact forall₂_congr fun a _ => and_iff_right (hnull a)

theorem Fields.readsBack_optionalString (s : Option String) :
    (Fields.optional name .string).ReadsBackAt s :=
  (Fields.readsBackAt_optional (by simp [Codec.string])).mpr fun _ _ => rfl

theorem Fields.readsBack_optionalU32 (n : Option UInt32) :
    (Fields.optional name .u32).ReadsBackAt n :=
  (Fields.readsBackAt_optional (by simp [Codec.u32])).mpr fun _ _ => Codec.readsBack_u32 _

theorem Fields.readsBack_optionalBool (b : Option Bool) :
    (Fields.optional name .bool).ReadsBackAt b :=
  (Fields.readsBackAt_optional (by simp [Codec.bool])).mpr fun _ _ => rfl

theorem Fields.readsBack_optionalObject (o : Option JsonObject) :
    (Fields.optional name .object).ReadsBackAt o :=
  (Fields.readsBackAt_optional (by simp [Codec.object])).mpr fun _ _ => rfl

/-- Any value but null. -/
theorem Fields.readsBackAt_optionalValue {v : Option Value} :
    (Fields.optional name .value).ReadsBackAt v ↔ v ≠ some .null := by
  rw [Fields.readsBackAt_option]
  constructor
  · rintro h rfl
    exact (h .null rfl).1 rfl
  · rintro h a rfl
    exact ⟨fun hnull => h (congrArg some hnull), rfl⟩

end Optional

end ReadsBack

/-! ## What is not read -/

section Rejects

variable {f : Fields α} {g : Fields β} {name : String} {o : JsonObject}

/-- The struct needs the field `name`. -/
def Fields.Needs (f : Fields α) (name : String) : Prop :=
  ∀ o, name ∉ keys o → f.visitMap o = none

theorem Fields.needs_required (name : String) (c : Codec α) :
    (Fields.required name c).Needs name := by
  intro o h
  simp [Fields.required, member_of_not_mem h]

theorem Fields.Needs.and_left (h : f.Needs name) (g : Fields β) : (f.and g).Needs name := by
  intro o ho
  simp [Fields.and, h o ho]

theorem Fields.Needs.and_right (f : Fields α) (h : g.Needs name) : (f.and g).Needs name := by
  intro o ho
  simp only [Fields.and, h o ho]
  cases f.visitMap o <;> rfl

theorem Fields.Needs.flatten (h : f.Needs name) (g : Flat β) (ho : name ∉ keys o) :
    (f.flatten g).deserialize (.object o) = none := by
  simp [Fields.flatten, h o ho]

theorem Fields.Needs.imap (h : f.Needs name) (make : α → γ) (parts : γ → α) :
    (f.imap make parts).Needs name := by
  intro o ho
  simp [Fields.imap, h o ho]

theorem Fields.Needs.tagged {key tag : String} (h : f.Needs name) : (f.tagged key tag).Needs name :=
  (h.and_right _).imap _ _

/-- A constant is read from itself only. -/
theorem Fields.required_constString {name s : String} {o : JsonObject}
    (h : member name o ≠ some (some (.string s))) :
    (Fields.required name (Codec.constString s)).visitMap o = none := by
  simp only [Fields.required]
  match hm : member name o with
  | none => rfl
  | some none => rfl
  | some (some (.string s')) =>
    have hne : s' ≠ s := fun heq => h (by rw [hm, heq])
    simp [Codec.constString, hne]
  | some (some .null) | some (some (.bool _)) | some (some (.number _))
  | some (some (.array _)) | some (some (.object _)) => rfl

/-- The struct is written with `tag` as its member `key`, and read with it only. -/
structure Fields.Tagged (f : Fields α) (key tag : String) : Prop where
  writes : ∀ a, member key (f.serialize a) = some (some (.string tag))
  reads : ∀ o, member key o ≠ some (some (.string tag)) → f.visitMap o = none

theorem Fields.tagged_tagged {key tag : String} (hkey : key ∉ f.names) :
    (f.tagged key tag).Tagged key tag where
  writes _ := Fields.member_tagged hkey
  reads o h := by simp [Fields.tagged, Fields.imap, Fields.and, Fields.required_constString h]

end Rejects

/-! ## Untagged unions -/

/-- What `wrap` makes of what the codec reads. -/
def Codec.alternative {U : Type} (c : Codec α) (wrap : α → U) (v : Value) : Option U :=
  (c.deserialize v).map wrap

/-- The first alternative that takes the value. -/
def untagged {U : Type} (alternatives : List (Value → Option U)) (v : Value) : Option U :=
  alternatives.findSome? (· v)

/-- The alternative takes only objects whose member `key` is `tag`. -/
def ReadsTag {U : Type} (key : String) (read : Value → Option U) (tag : String) : Prop :=
  ∀ o, member key o ≠ some (some (.string tag)) → read (.object o) = none

/-- The alternative takes only objects that have a member `name`. -/
def NeedsMember {U : Type} (read : Value → Option U) (name : String) : Prop :=
  ∀ o, name ∉ keys o → read (.object o) = none

/-- What the alternative reads is of one variant. -/
def Makes {U : Type} (variant : U → β) (read : Value → Option U) (b : β) : Prop :=
  ∀ v u, read v = some u → variant u = b

section Untagged

variable {U : Type} {alternatives : List (Value → Option U)} {read last : Value → Option U}
  {v : Value} {o : JsonObject} {u : U}

theorem Fields.Tagged.readsTag {key tag : String} {f : Fields α} (hf : f.Tagged key tag)
    {wrap : α → U} : ReadsTag key ((Codec.struct f).alternative wrap) tag := by
  intro o h
  simp [Codec.alternative, hf.reads o h]

theorem Fields.Needs.needsMember {name : String} {f : Fields α} (h : f.Needs name) {wrap : α → U} :
    NeedsMember ((Codec.struct f).alternative wrap) name := by
  intro o ho
  simp [Codec.alternative, h o ho]

theorem untagged_cons_of_none (h : read v = none) :
    untagged (read :: alternatives) v = untagged alternatives v := by
  simp [untagged, h]

theorem untagged_cons_of_some (h : read v = some u) :
    untagged (read :: alternatives) v = some u := by
  simp [untagged, h]

theorem untagged_skip {c : Codec α} {wrap : α → U} (h : c.deserialize v = none) :
    untagged (c.alternative wrap :: alternatives) v = untagged alternatives v :=
  untagged_cons_of_none (by simp [Codec.alternative, h])

theorem untagged_take {c : Codec α} {wrap : α → U} {a : α} (h : c.deserialize v = some a) :
    untagged (c.alternative wrap :: alternatives) v = some (wrap a) :=
  untagged_cons_of_some (by simp [Codec.alternative, h])

/-- An object without a tag is not read. -/
theorem untagged_of_no_tag {key : String} {tags : List String}
    (hreads : List.Forall₂ (ReadsTag key) alternatives tags) (h : key ∉ keys o) :
    untagged alternatives (.object o) = none := by
  induction hreads with
  | nil => rfl
  | cons hfirst _ ih =>
    rw [untagged_cons_of_none (hfirst o (by simp [member_of_not_mem h])), ih]

/-- Among alternatives with different tags, an object is taken by the one that has its tag. -/
theorem untagged_of_tag {key tag : String} {tags : List String} {i : ℕ}
    (hreads : List.Forall₂ (ReadsTag key) alternatives tags) (hdistinct : tags.Nodup)
    (hread : alternatives[i]? = some read) (hi : tags[i]? = some tag)
    (htag : member key o = some (some (.string tag))) (h : read (.object o) = some u) :
    untagged alternatives (.object o) = some u := by
  induction hreads generalizing i with
  | nil => cases hread
  | @cons first t rest ts hfirst _ ih =>
    obtain ⟨hnot, hdistinct⟩ := List.nodup_cons.mp hdistinct
    match i with
    | 0 =>
      cases hread
      exact untagged_cons_of_some h
    | i + 1 =>
      -- the first one has another tag
      have hne : tag ≠ t := by
        rintro rfl
        exact hnot (List.mem_of_getElem? hi)
      rw [untagged_cons_of_none (hfirst o (by rw [htag]; simpa using hne))]
      exact ih hdistinct hread hi

/-- Where every alternative but the last needs a member of its own, an object is taken by one
that takes it if it has none of the members that those before need. -/
theorem untagged_of_needs {names : List String} {i : ℕ}
    (hneeds : List.Forall₂ NeedsMember alternatives names)
    (hread : (alternatives ++ [last])[i]? = some read)
    (hnames : ∀ name ∈ names.take i, name ∉ keys o)
    (h : read (.object o) = some u) : untagged (alternatives ++ [last]) (.object o) = some u := by
  induction hneeds generalizing i with
  | nil =>
    match i with
    | 0 =>
      cases hread
      exact untagged_cons_of_some h
    | i + 1 => cases hread
  | @cons first name rest names hfirst _ ih =>
    match i with
    | 0 =>
      cases hread
      exact untagged_cons_of_some h
    | i + 1 =>
      have hnone : first (.object o) = none := hfirst o (hnames name List.mem_cons_self)
      rw [List.cons_append, untagged_cons_of_none hnone]
      exact ih hread fun n hn => hnames n (List.mem_cons_of_mem _ hn)

/-- The variant of a value is kept by a union whose alternatives have different tags. -/
theorem untagged_keeps_of_tag {key tag : String} {tags : List String} {f : Fields α} {wrap : α → U}
    {variant : U → β} {a : α} (i : ℕ)
    (hreads : List.Forall₂ (ReadsTag key) alternatives tags) (hdistinct : tags.Nodup)
    (hread : alternatives[i]? = some ((Codec.struct f).alternative wrap))
    (hi : tags[i]? = some tag) (hf : f.Tagged key tag) (h : f.AcceptsAt a)
    (hvariant : ∀ a', variant (wrap a') = variant (wrap a)) :
    ∃ u, untagged alternatives (.object (f.serialize a)) = some u ∧
      variant u = variant (wrap a) := by
  obtain ⟨a', ha⟩ := h
  refine ⟨wrap a', ?_, hvariant a'⟩
  refine untagged_of_tag hreads hdistinct hread hi (hf.writes a) ?_
  simp [Codec.alternative, ha]

/-- The variant of a value is kept by a union whose alternatives are told apart by the members
they need. -/
theorem untagged_keeps_of_needs {names : List String} {c : Codec α} {wrap : α → U}
    {variant : U → β} {a : α} (i : ℕ) (hneeds : List.Forall₂ NeedsMember alternatives names)
    (hread : (alternatives ++ [last])[i]? = some (c.alternative wrap))
    (hvariant : ∀ a', variant (wrap a') = variant (wrap a)) (ho : c.serialize a = .object o)
    (hnames : ∀ name ∈ names.take i, name ∉ keys o) (h : c.AcceptsAt a) :
    ∃ u, untagged (alternatives ++ [last]) (c.serialize a) = some u ∧
      variant u = variant (wrap a) := by
  obtain ⟨a', ha⟩ := h
  refine ⟨wrap a', ?_, hvariant a'⟩
  rw [ho] at ha ⊢
  refine untagged_of_needs hneeds hread hnames ?_
  simp [Codec.alternative, ha]

theorem Codec.alternative_eq_some_iff {c : Codec α} {wrap : α → U} {a : α}
    (hwrap : Function.Injective wrap) :
    c.alternative wrap v = some (wrap a) ↔ c.deserialize v = some a := by
  simp [alternative, Option.map_eq_some_iff, hwrap.eq_iff]

theorem Codec.alternative_of_none {c : Codec α} {wrap : α → U} (h : c.deserialize v = none) :
    c.alternative wrap v = none := by
  simp [alternative, h]

theorem Codec.alternative_makes {c : Codec α} {wrap : α → U} {variant : U → β} {b : β}
    (h : ∀ a, variant (wrap a) = b) : Makes variant (c.alternative wrap) b := by
  intro v u hu
  obtain ⟨a, _, rfl⟩ := Option.map_eq_some_iff.mp hu
  exact h a

/-- A variant that no alternative makes is not read. -/
theorem untagged_ne_of_makes {variant : U → β} {variants : List β}
    (hmakes : List.Forall₂ (Makes variant) alternatives variants) (hu : variant u ∉ variants) :
    untagged alternatives v ≠ some u := by
  induction hmakes with
  | nil => simp [untagged]
  | @cons first b rest bs hfirst _ ih =>
    rw [List.mem_cons, not_or] at hu
    cases hv : first v with
    | none =>
      rw [untagged_cons_of_none hv]
      exact ih hu.2
    | some u' =>
      rw [untagged_cons_of_some hv]
      rintro ⟨⟩
      exact hu.1 (hfirst v u hv)

/-- Where each alternative makes a variant of its own, a value comes back exactly when the
alternative of its variant reads it and those before do not take it. -/
theorem untagged_eq_some_iff {variant : U → β} {variants : List β} {i : ℕ}
    (hmakes : List.Forall₂ (Makes variant) alternatives variants) (hdistinct : variants.Nodup)
    (hread : alternatives[i]? = some read) (hi : variants[i]? = some (variant u))
    (hbefore : ∀ earlier ∈ alternatives.take i, earlier v = none) :
    untagged alternatives v = some u ↔ read v = some u := by
  induction hmakes generalizing i with
  | nil => cases hread
  | @cons first b rest bs hfirst hrest ih =>
    obtain ⟨hnot, hdistinct⟩ := List.nodup_cons.mp hdistinct
    cases i with
    | zero =>
      cases hread
      cases hi
      cases hv : read v with
      | some u' => rw [untagged_cons_of_some hv]
      | none => simpa [untagged_cons_of_none hv] using untagged_ne_of_makes hrest hnot
    | succ i =>
      rw [List.take_succ_cons, List.forall_mem_cons] at hbefore
      rw [untagged_cons_of_none hbefore.1]
      exact ih hdistinct hread hi hbefore.2

/-- What is written with a tag is taken by no alternative with another tag. -/
theorem none_of_tag {key tag : String} {tags : List String} {i : ℕ}
    (hreads : List.Forall₂ (ReadsTag key) alternatives tags) (hdistinct : tags.Nodup)
    (hi : tags[i]? = some tag) (htag : member key o = some (some (.string tag))) :
    ∀ earlier ∈ alternatives.take i, earlier (.object o) = none := by
  induction hreads generalizing i with
  | nil => simp
  | @cons first t rest ts hfirst _ ih =>
    obtain ⟨hnot, hdistinct⟩ := List.nodup_cons.mp hdistinct
    cases i with
    | zero => simp
    | succ i =>
      have hne : tag ≠ t := by
        rintro rfl
        exact hnot (List.mem_of_getElem? hi)
      rw [List.take_succ_cons, List.forall_mem_cons]
      exact ⟨hfirst o (by rw [htag]; simpa using hne), ih hdistinct hi⟩

/-- What is written without the members that the earlier alternatives need is taken by none of
them. -/
theorem none_of_needs {names : List String} {i : ℕ}
    (hneeds : List.Forall₂ NeedsMember alternatives names) (hi : i ≤ names.length)
    (hnames : ∀ name ∈ names.take i, name ∉ keys o) :
    ∀ earlier ∈ (alternatives ++ [last]).take i, earlier (.object o) = none := by
  induction hneeds generalizing i with
  | nil => simp [Nat.le_zero.mp hi]
  | @cons first name rest names hfirst _ ih =>
    cases i with
    | zero => simp
    | succ i =>
      rw [List.cons_append, List.take_succ_cons, List.forall_mem_cons]
      refine ⟨hfirst o (hnames name List.mem_cons_self), ih (Nat.le_of_succ_le_succ hi) ?_⟩
      exact fun n hn => hnames n (List.mem_cons_of_mem _ hn)

/-- A variant with a tag comes back when its struct does. -/
theorem untagged_struct_eq_some_iff {key tag : String} {tags : List String} {variant : U → ℕ}
    {f : Fields α} {wrap : α → U} {a : α} (i : ℕ)
    (hmakes : List.Forall₂ (Makes variant) alternatives (List.range tags.length))
    (hreads : List.Forall₂ (ReadsTag key) alternatives tags) (hdistinct : tags.Nodup)
    (hread : alternatives[i]? = some ((Codec.struct f).alternative wrap))
    (hi : tags[i]? = some tag) (hf : f.Tagged key tag) (hvariant : variant (wrap a) = i)
    (hwrap : Function.Injective wrap) :
    untagged alternatives (.object (f.serialize a)) = some (wrap a) ↔ f.ReadsBackAt a := by
  obtain ⟨hlt, _⟩ := List.getElem?_eq_some_iff.mp hi
  have hindex : (List.range tags.length)[i]? = some (variant (wrap a)) := by
    rw [List.getElem?_range hlt, hvariant]
  rw [untagged_eq_some_iff hmakes List.nodup_range hread hindex
    (none_of_tag hreads hdistinct hi (hf.writes a)), Codec.alternative_eq_some_iff hwrap]
  rfl

/-- A variant that is written without what the earlier ones need comes back when it does so by
itself. -/
theorem untagged_codec_eq_some_iff {names : List String} {variant : U → ℕ} {c : Codec α}
    {wrap : α → U} {a : α} (i : ℕ)
    (hmakes : List.Forall₂ (Makes variant) (alternatives ++ [last])
      (List.range (names.length + 1)))
    (hneeds : List.Forall₂ NeedsMember alternatives names)
    (hread : (alternatives ++ [last])[i]? = some (c.alternative wrap))
    (hi : i ≤ names.length) (ho : c.serialize a = .object o)
    (hnames : ∀ name ∈ names.take i, name ∉ keys o) (hvariant : variant (wrap a) = i)
    (hwrap : Function.Injective wrap) :
    untagged (alternatives ++ [last]) (c.serialize a) = some (wrap a) ↔ c.ReadsBackAt a := by
  have hindex : (List.range (names.length + 1))[i]? = some (variant (wrap a)) := by
    rw [List.getElem?_range (Nat.lt_succ_of_le hi), hvariant]
  have hbefore : ∀ earlier ∈ (alternatives ++ [last]).take i, earlier (.object o) = none :=
    none_of_needs hneeds hi hnames
  rw [← ho] at hbefore
  rw [untagged_eq_some_iff hmakes List.nodup_range hread hindex hbefore,
    Codec.alternative_eq_some_iff hwrap]
  rfl

theorem untagged_keeps_struct_of_needs {names : List String} {f : Fields α} {wrap : α → U}
    {variant : U → β} {a : α} (i : ℕ) (hneeds : List.Forall₂ NeedsMember alternatives names)
    (hread : (alternatives ++ [last])[i]? = some ((Codec.struct f).alternative wrap))
    (hnames : ∀ name ∈ names.take i, name ∉ f.names) (h : f.AcceptsAt a)
    (hvariant : ∀ a', variant (wrap a') = variant (wrap a)) :
    ∃ u, untagged (alternatives ++ [last]) ((Codec.struct f).serialize a) = some u ∧
      variant u = variant (wrap a) :=
  untagged_keeps_of_needs i hneeds hread hvariant rfl
    (fun name hname => f.not_mem_keys (hnames name hname)) h

end Untagged

/-! ## Internally tagged unions -/

/-- The variant that a tag names, as a string or, where the value was buffered before it is
read, by its place. -/
def variantOf {U : Type} (variants : List (String × (Value → Option U))) :
    Value → Option (Value → Option U)
  | .string s => (variants.find? (·.1 = s)).map (·.2)
  | .number (.posInt n) => variants[n.toNat]?.map (·.2)
  | _ => none

/-- The member `key` names the variant, which is read from the other members. In an array the
tag is the first element. -/
def internallyTagged {U : Type} (key : String) (variants : List (String × (Value → Option U))) :
    Value → Option U
  | .object o =>
    (member key o).bind fun tag =>
      (tag.bind (variantOf variants)).bind fun read => read (.object (without [key] o))
  | .array (tag :: vs) => (variantOf variants tag).bind fun read => read (.array vs)
  | _ => none

section InternallyTagged

variable {U : Type} {key tag : String} {variants : List (String × (Value → Option U))}
  {read : Value → Option U} {o : JsonObject}

/-- An object is read as the variant that its tag names. -/
theorem internallyTagged_of_tag (hread : variants.find? (·.1 = tag) = some (tag, read))
    (htag : member key o = some (some (.string tag))) :
    internallyTagged key variants (.object o) = read (.object (without [key] o)) := by
  simp [internallyTagged, htag, variantOf, hread]

/-- A variant is read from the members written with its tag in front. -/
theorem internallyTagged_cons (hread : variants.find? (·.1 = tag) = some (tag, read))
    (hkey : ∀ m ∈ o, m.1 ≠ key) :
    internallyTagged key variants (.object ((key, .string tag) :: o)) = read (.object o) := by
  have hmember : member key ((key, .string tag) :: o) = some (some (.string tag)) := by
    have hnone : o.filter (·.1 = key) = [] := by
      rw [List.filter_eq_nil_iff]
      intro m hm
      simpa using hkey m hm
    simp [member, hnone]
  have hwithout : without [key] ((key, .string tag) :: o) = o := by
    rw [without, List.filter_cons_of_neg (by simp)]
    exact without_eq_self fun m hm => by simpa using hkey m hm
  rw [internallyTagged_of_tag hread hmember, hwithout]

/-- A variant comes back when what it carries does. -/
theorem internallyTagged_struct_eq_some_iff {f : Fields α} {wrap : α → U} {a : α}
    (hread : variants.find? (·.1 = tag) = some (tag, (Codec.struct f).alternative wrap))
    (hkey : key ∉ f.names) (hwrap : Function.Injective wrap) :
    internallyTagged key variants (.object ((key, .string tag) :: f.serialize a)) =
      some (wrap a) ↔ f.ReadsBackAt a := by
  rw [internallyTagged_cons hread (f.key_ne hkey), Codec.alternative_eq_some_iff hwrap]
  rfl

theorem variantOf_mem {tag : Value} (h : variantOf variants tag = some read) :
    ∃ name, (name, read) ∈ variants := by
  unfold variantOf at h
  split at h
  · obtain ⟨variant, hfind, rfl⟩ := Option.map_eq_some_iff.mp h
    exact ⟨variant.1, List.mem_of_find?_eq_some hfind⟩
  · obtain ⟨variant, hget, rfl⟩ := Option.map_eq_some_iff.mp h
    exact ⟨variant.1, List.mem_of_getElem? hget⟩
  · cases h

/-- What an object is read as is made by one of the variants, which does not see the tag. -/
theorem internallyTagged_object {u : U}
    (h : internallyTagged key variants (.object o) = some u) :
    ∃ name read, (name, read) ∈ variants ∧ read (.object (without [key] o)) = some u := by
  simp only [internallyTagged, Option.bind_eq_some_iff] at h
  obtain ⟨tag, _, read, ⟨value, _, hvariant⟩, hread⟩ := h
  obtain ⟨name, hmem⟩ := variantOf_mem hvariant
  exact ⟨name, read, hmem, hread⟩

end InternallyTagged

end Rmcp.Serde
