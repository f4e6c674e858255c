import Rmcp.Support.Serde
import Mathlib.Data.List.Forall2

/-!
# The same JSON

Two JSON values are the same when they differ in the order of the members of their objects at
most. A codec relays a value when it reads the value, and what it writes for what it has read
is the same value again: no member is lost on the way.
-/

namespace Rmcp.Serde

/-- Objects are compared member by member, once those of the second one are reordered. -/
inductive SameJson : Value → Value → Prop
  | refl (v : Value) : SameJson v v
  | array {vs ws : List Value} (h : List.Forall₂ SameJson vs ws) :
      SameJson (.array vs) (.array ws)
  | object {o reordered o' : JsonObject} (hkeys : keys o = keys reordered)
      (h : List.Forall₂ SameJson (o.map (·.2)) (reordered.map (·.2)))
      (hperm : reordered.Perm o') : SameJson (.object o) (.object o')

namespace SameJson

variable {v w : Value} {vs ws : List Value} {o o' o'' : JsonObject} {name : String}

theorem of_perm (h : o.Perm o') : SameJson (.object o) (.object o') :=
  .object rfl (List.forall₂_same.mpr fun v _ => .refl v) h

theorem trans_perm (h : SameJson (.object o) (.object o')) (hperm : o'.Perm o'') :
    SameJson (.object o) (.object o'') := by
  cases h with
  | refl => exact of_perm hperm
  | object hkeys h hreordered => exact .object hkeys h (hreordered.trans hperm)

/-- Members with the same values make the same objects. -/
theorem cons (hfirst : SameJson v w) (h : SameJson (.object o) (.object o')) :
    SameJson (.object ((name, v) :: o)) (.object ((name, w) :: o')) := by
  cases h with
  | refl =>
    have hkeys : keys ((name, v) :: o) = keys ((name, w) :: o) := rfl
    exact .object hkeys (.cons hfirst (List.forall₂_same.mpr fun v _ => .refl v)) (.refl _)
  | @object _ reordered _ hkeys h hperm =>
    have hkeys : keys ((name, v) :: o) = keys ((name, w) :: reordered) :=
      congrArg (name :: ·) hkeys
    exact .object hkeys (.cons hfirst h) (hperm.cons (name, w))

theorem array_iff : SameJson (.array vs) (.array ws) ↔ List.Forall₂ SameJson vs ws := by
  constructor
  · intro h
    cases h with
    | refl => exact List.forall₂_same.mpr fun v _ => .refl v
    | array h => exact h
  · exact .array

/-- Every member of the second object stands in the first one. -/
theorem exists_member (h : SameJson (.object o) (.object o')) (hmem : (name, v) ∈ o') :
    ∃ w, (name, w) ∈ o ∧ SameJson w v := by
  cases h with
  | refl => exact ⟨v, hmem, .refl v⟩
  | @object _ reordered _ hkeys h hperm =>
    have hmem := hperm.mem_iff.mpr hmem
    clear hperm
    induction o generalizing reordered with
    | nil =>
      cases reordered with
      | nil => cases hmem
      | cons => cases hkeys
    | cons m o ih =>
      match reordered, hkeys, h with
      | (key, w) :: reordered, hkeys, .cons hfirst hrest =>
        obtain ⟨hkey, hkeys⟩ := List.cons.inj hkeys
        rcases List.mem_cons.mp hmem with heq | hmem
        · cases heq
          cases hkey
          exact ⟨m.2, List.mem_cons_self, hfirst⟩
        · obtain ⟨u, hu, hsame⟩ := ih hkeys hrest hmem
          exact ⟨u, List.mem_cons_of_mem _ hu, hsame⟩

end SameJson

/-! ## Relays -/

/-- The codec reads `v`, and writes the same JSON again. -/
def Codec.Relays {α : Type} (c : Codec α) (v : Value) : Prop :=
  ∃ a, c.deserialize v = some a ∧ SameJson (c.serialize a) v

/-- A list is relayed when each element is. -/
theorem Codec.relays_list {α : Type} {c : Codec α} {vs : List Value} :
    c.list.Relays (.array vs) ↔ ∀ v ∈ vs, c.Relays v := by
  simp only [Relays, list, SameJson.array_iff]
  induction vs with
  | nil => simp
  | cons v vs ih =>
    rw [List.forall_mem_cons, ← ih]
    simp only [List.mapM_cons, Option.pure_def, Option.bind_eq_bind, Option.bind_eq_some_iff]
    constructor
    · rintro ⟨_, ⟨a, ha, as, has, ⟨⟩⟩, h⟩
      obtain ⟨hfirst, hrest⟩ := List.forall₂_cons.mp h
      exact ⟨⟨a, ha, hfirst⟩, as, has, hrest⟩
    · rintro ⟨⟨a, ha, hfirst⟩, as, has, hrest⟩
      exact ⟨a :: as, ⟨a, ha, as, has, rfl⟩, .cons hfirst hrest⟩

/-! ## Members in any order -/

/-- A field finds its member wherever it stands. -/
theorem member_perm {name : String} {o o' : JsonObject} (h : o.Perm o') :
    member name o = member name o' := by
  have hfilter := h.filter (·.1 = name)
  simp only [member]
  generalize o.filter (·.1 = name) = ms at hfilter ⊢
  generalize o'.filter (·.1 = name) = ns at hfilter ⊢
  rcases ms with _ | ⟨m, _ | ⟨m', ms⟩⟩
  · rw [hfilter.nil_eq]
  · rw [List.singleton_perm.mp hfilter]
  · rcases ns with _ | ⟨n, _ | ⟨n', ns⟩⟩
    · exact absurd hfilter.length_eq (by simp)
    · exact absurd hfilter.length_eq (by simp)
    · rfl

end Rmcp.Serde
