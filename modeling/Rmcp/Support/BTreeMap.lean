import Rmcp.Support.Serde
import Mathlib.Data.String.Basic
import Mathlib.Order.Defs.LinearOrder

/-!
# Maps in the order of their keys

A map as the list of its entries, each key once and in order. Entries that are in order come to
a list by being inserted one after another, so that a map is what is made of its entries.

Result: `Codec.btreeMap_readsBack`, a map with values that come back comes back.
-/

namespace Rmcp

structure BTreeMap (K α : Type) [LT K] where
  entries : List (K × α)
  sorted : entries.Pairwise (·.1 < ·.1)

namespace BTreeMap

variable {K α : Type} [LinearOrder K]

theorem ext {m m' : BTreeMap K α} (h : m.entries = m'.entries) : m = m' := by
  cases m
  cases m'
  cases h
  rfl

def empty : BTreeMap K α := ⟨[], .nil⟩

/-- An entry of the same key is replaced. -/
def insertEntry (k : K) (a : α) : List (K × α) → List (K × α)
  | [] => [(k, a)]
  | entry :: entries =>
    if k < entry.1 then (k, a) :: entry :: entries
    else if k = entry.1 then (k, a) :: entries
    else entry :: insertEntry k a entries

theorem mem_insertEntry {k : K} {a : α} {entry : K × α} {entries : List (K × α)}
    (h : entry ∈ insertEntry k a entries) : entry = (k, a) ∨ entry ∈ entries := by
  induction entries with
  | nil => exact .inl (List.mem_singleton.mp h)
  | cons first entries ih =>
    unfold insertEntry at h
    split at h
    · exact List.mem_cons.mp h
    · split at h
      · exact (List.mem_cons.mp h).imp_right (List.mem_cons_of_mem _)
      · rcases List.mem_cons.mp h with rfl | h
        · exact .inr List.mem_cons_self
        · exact (ih h).imp_right (List.mem_cons_of_mem _)

theorem sorted_insertEntry (k : K) (a : α) {entries : List (K × α)}
    (h : entries.Pairwise (·.1 < ·.1)) : (insertEntry k a entries).Pairwise (·.1 < ·.1) := by
  induction entries with
  | nil => exact List.pairwise_singleton _ _
  | cons first entries ih =>
    obtain ⟨hfirst, hrest⟩ := List.pairwise_cons.mp h
    unfold insertEntry
    split
    next hlt =>
      refine List.pairwise_cons.mpr ⟨fun entry hmem => ?_, h⟩
      rcases List.mem_cons.mp hmem with rfl | hmem
      · exact hlt
      · exact hlt.trans (hfirst entry hmem)
    next hnlt =>
      split
      next heq =>
        subst heq
        exact List.pairwise_cons.mpr ⟨hfirst, hrest⟩
      next hne =>
        refine List.pairwise_cons.mpr ⟨fun entry hmem => ?_, ih hrest⟩
        rcases mem_insertEntry hmem with rfl | hmem
        · exact lt_of_le_of_ne (not_lt.mp hnlt) (Ne.symm hne)
        · exact hfirst entry hmem

def insert (m : BTreeMap K α) (k : K) (a : α) : BTreeMap K α :=
  ⟨insertEntry k a m.entries, sorted_insertEntry k a m.sorted⟩

/-- A key behind all others goes to the end. -/
theorem insertEntry_append {k : K} {a : α} {entries : List (K × α)}
    (h : ∀ entry ∈ entries, entry.1 < k) : insertEntry k a entries = entries ++ [(k, a)] := by
  induction entries with
  | nil => rfl
  | cons first entries ih =>
    obtain ⟨hfirst, hrest⟩ := List.forall_mem_cons.mp h
    rw [insertEntry, if_neg (not_lt_of_gt hfirst), if_neg (ne_of_gt hfirst), ih hrest,
      List.cons_append]

end BTreeMap

namespace Serde

variable {α : Type}

/-- The members are inserted in turn. -/
def Codec.btreeMapOf (c : Codec α) :
    BTreeMap String α → JsonObject → Option (BTreeMap String α)
  | m, [] => some m
  | m, (k, v) :: o => (c.deserialize v).bind fun a => btreeMapOf c (m.insert k a) o

/-- A map with strings as keys. -/
def Codec.btreeMap (c : Codec α) : Codec (BTreeMap String α) where
  serialize m := .object (m.entries.map fun (k, a) => (k, c.serialize a))
  deserialize
    | .object o => c.btreeMapOf .empty o
    | _ => none

/-- Entries that come after those of the map are put behind them. -/
theorem Codec.btreeMapOf_entries {c : Codec α} {entries : List (String × α)}
    {m m' : BTreeMap String α} (hread : ∀ entry ∈ entries, c.ReadsBackAt entry.2)
    (hm' : m'.entries = m.entries ++ entries) :
    c.btreeMapOf m (entries.map fun (k, a) => (k, c.serialize a)) = some m' := by
  induction entries generalizing m with
  | nil =>
    have heq : m = m' := BTreeMap.ext (by rw [hm', List.append_nil])
    rw [heq]
    rfl
  | cons entry entries ih =>
    obtain ⟨k, a⟩ := entry
    obtain ⟨hfirst, hrest⟩ := List.forall_mem_cons.mp hread
    have hsorted := m'.sorted
    rw [hm', List.pairwise_append] at hsorted
    have hlast : (m.insert k a).entries = m.entries ++ [(k, a)] :=
      BTreeMap.insertEntry_append fun entry hmem => hsorted.2.2 entry hmem _ List.mem_cons_self
    rw [List.map_cons, btreeMapOf, show c.deserialize (c.serialize a) = some a from hfirst]
    refine ih hrest ?_
    rw [hm', hlast, List.append_assoc]
    rfl

theorem Codec.btreeMap_readsBack {c : Codec α} (m : BTreeMap String α)
    (hread : ∀ entry ∈ m.entries, c.ReadsBackAt entry.2) : c.btreeMap.ReadsBackAt m :=
  Codec.btreeMapOf_entries hread rfl

end Serde

end Rmcp
