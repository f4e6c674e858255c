import Mathlib.Logic.Basic
import Mathlib.Tactic.Common

/-!
# Hash maps, seen through lookup

A map is its lookup function. Insertion and removal change one key, and two maps
are equal when they agree on every key, so no statement depends on the order in
which a map was filled.
-/

universe u v w

/-- A map from `K` to `V`: the value stored under each key, if any. -/
def HashMap (K : Type u) (V : Type v) : Type (max u v) := K → Option V

namespace HashMap

variable {K : Type u} {V : Type v} {W : Type w}

/-- The map with no entry. -/
def empty : HashMap K V := fun _ => none

/-- The value stored under `k`. -/
def get (m : HashMap K V) (k : K) : Option V := m k

/-- The map with the value of every entry transformed by `f`. -/
def mapValues (f : V → W) (m : HashMap K V) : HashMap K W := fun k => (m.get k).map f

section Update

variable [DecidableEq K]

/-- Store `v` under `k`, replacing what was stored there. -/
def insert (m : HashMap K V) (k : K) (v : V) : HashMap K V :=
  fun k' => if k' = k then some v else m.get k'

/-- Drop the entry of `k`, if there is one. -/
def remove (m : HashMap K V) (k : K) : HashMap K V :=
  fun k' => if k' = k then none else m.get k'

end Update

@[ext] theorem ext {m m' : HashMap K V} (h : ∀ k, m.get k = m'.get k) : m = m' :=
  funext h

@[simp] theorem get_empty (k : K) : (empty : HashMap K V).get k = none := rfl

@[simp] theorem get_mapValues (f : V → W) (m : HashMap K V) (k : K) :
    (m.mapValues f).get k = (m.get k).map f := rfl

/-- The entries of a map, each once, in some order. -/
structure Entries (m : HashMap K V) (entries : List (K × V)) : Prop where
  nodup_keys : (entries.map (·.1)).Nodup
  mem_iff : ∀ k v, (k, v) ∈ entries ↔ m.get k = some v

theorem entries_empty : Entries (empty : HashMap K V) [] :=
  ⟨List.nodup_nil, fun k v => by simp⟩

variable [DecidableEq K]

theorem get_insert (m : HashMap K V) (k k' : K) (v : V) :
    (m.insert k v).get k' = if k' = k then some v else m.get k' := rfl

theorem get_remove (m : HashMap K V) (k k' : K) :
    (m.remove k).get k' = if k' = k then none else m.get k' := rfl

@[simp] theorem get_insert_self (m : HashMap K V) (k : K) (v : V) :
    (m.insert k v).get k = some v := if_pos rfl

@[simp] theorem get_remove_self (m : HashMap K V) (k : K) : (m.remove k).get k = none :=
  if_pos rfl

theorem get_insert_of_ne {m : HashMap K V} {k k' : K} {v : V} (h : k' ≠ k) :
    (m.insert k v).get k' = m.get k' := if_neg h

theorem get_remove_of_ne {m : HashMap K V} {k k' : K} (h : k' ≠ k) :
    (m.remove k).get k' = m.get k' := if_neg h

/-- Storing what is there already changes nothing. -/
theorem insert_of_get {m : HashMap K V} {k : K} {v : V} (h : m.get k = some v) :
    m.insert k v = m := by
  ext k' : 1
  rw [get_insert]
  split
  · next hk => rw [hk, h]
  · rfl

/-- Dropping an entry that is not there changes nothing. -/
theorem remove_of_get {m : HashMap K V} {k : K} (h : m.get k = none) : m.remove k = m := by
  ext k' : 1
  rw [get_remove]
  split
  · next hk => rw [hk, h]
  · rfl

@[simp] theorem mapValues_insert (f : V → W) (m : HashMap K V) (k : K) (v : V) :
    (m.insert k v).mapValues f = (m.mapValues f).insert k (f v) := by
  ext k' : 1
  simp only [get_mapValues, get_insert]
  split <;> rfl

@[simp] theorem mapValues_remove (f : V → W) (m : HashMap K V) (k : K) :
    (m.remove k).mapValues f = (m.mapValues f).remove k := by
  ext k' : 1
  simp only [get_mapValues, get_remove]
  split <;> rfl

/-! ## Iteration -/

/-- A map that is filled entry by entry can be iterated over. -/
theorem Entries.insert {m : HashMap K V} {entries : List (K × V)} (h : Entries m entries) (k : K)
    (v : V) : Entries (m.insert k v) ((k, v) :: entries.filter fun e => e.1 ≠ k) := by
  refine ⟨?_, fun k' v' => ?_⟩
  · rw [List.map_cons, List.nodup_cons]
    refine ⟨?_, h.nodup_keys.sublist (List.filter_sublist.map _)⟩
    simp
  · rw [get_insert, List.mem_cons, List.mem_filter, h.mem_iff]
    by_cases hk : k' = k
    · simp [hk, eq_comm]
    · simp [hk]

end HashMap
