import Rmcp.Support.HashMap
import Mathlib.Data.Finset.Basic

/-!
# Registries: an owner map and member sets kept as mutual inverses

A registry assigns keys to groups. The owner map gives the group of a key, and each
open group carries the set of keys it holds. The two are consistent when they say the
same. The operations are those of a routing table: open a group, close a group, attach
a key to a group, and detach a key, which also closes a group that becomes empty.

Results:
1. `Consistent.detach`: detaching always keeps consistency.
2. `consistent_attach_iff`, `consistent_openGroup_iff`, `consistent_closeGroup_iff`: the
   other three keep it exactly under the stated condition on the registry before.
3. `Consistent.applyAll`: a list of operations keeps it when each meets its condition.
-/

universe u v

/-- The owner of each key, and the members of each open group. -/
structure Registry (K : Type u) (C : Type v) where
  owner : HashMap K C
  members : HashMap C (Finset K)

namespace Registry

variable {K : Type u} {C : Type v}

/-- No group is open and no key has an owner. -/
def empty : Registry K C := ⟨.empty, .empty⟩

/-- A key is owned by a group exactly when the group is open and holds it. -/
def Consistent (r : Registry K C) : Prop :=
  ∀ k c, r.owner.get k = some c ↔ ∃ ks, r.members.get c = some ks ∧ k ∈ ks

theorem consistent_empty : Consistent (empty : Registry K C) := by
  intro k c
  simp [empty]

/-- In a consistent registry only the owner of `k` holds it. -/
theorem Consistent.not_mem_of_ne {r : Registry K C} {k : K} {c c' : C} {ks : Finset K}
    (hr : Consistent r) (hk : r.owner.get k = some c) (hne : c ≠ c')
    (hks : r.members.get c' = some ks) : k ∉ ks := by
  intro hmem
  have hk' := (hr k c').mpr ⟨ks, hks, hmem⟩
  exact hne (Option.some.inj (hk.symm.trans hk'))

variable [DecidableEq C]

/-- Open `c` with no member; an open group of that name is replaced. -/
def openGroup (r : Registry K C) (c : C) : Registry K C :=
  { r with members := r.members.insert c ∅ }

/-- Drop the group `c`. The owner map is left as it is. -/
def closeGroup (r : Registry K C) (c : C) : Registry K C :=
  { r with members := r.members.remove c }

@[simp] theorem owner_openGroup (r : Registry K C) (c : C) :
    (r.openGroup c).owner = r.owner := rfl

@[simp] theorem owner_closeGroup (r : Registry K C) (c : C) :
    (r.closeGroup c).owner = r.owner := rfl

theorem members_openGroup (r : Registry K C) (c c' : C) :
    (r.openGroup c).members.get c' = if c' = c then some ∅ else r.members.get c' := rfl

theorem members_closeGroup (r : Registry K C) (c c' : C) :
    (r.closeGroup c).members.get c' = if c' = c then none else r.members.get c' := rfl

/-- Closing a group keeps consistency exactly when no key is owned by it. -/
theorem consistent_closeGroup_iff {r : Registry K C} {c : C} (hr : Consistent r) :
    Consistent (r.closeGroup c) ↔ ∀ k, r.owner.get k ≠ some c := by
  constructor
  · intro h k hk
    obtain ⟨ks, hks, -⟩ := (h k c).mp hk
    simp [members_closeGroup] at hks
  · intro h k c'
    rw [owner_closeGroup, members_closeGroup, hr k c']
    split
    · next hc =>
      subst hc
      simp only [reduceCtorEq, false_and, exists_false, iff_false]
      exact fun hmem => h k ((hr k c').mpr hmem)
    · exact Iff.rfl

/-- Opening a group keeps consistency exactly when no key is owned by it. -/
theorem consistent_openGroup_iff {r : Registry K C} {c : C} (hr : Consistent r) :
    Consistent (r.openGroup c) ↔ ∀ k, r.owner.get k ≠ some c := by
  constructor
  · intro h k hk
    obtain ⟨ks, hks, hmem⟩ := (h k c).mp hk
    rw [members_openGroup, if_pos rfl] at hks
    cases hks
    exact absurd hmem (Finset.notMem_empty k)
  · intro h k c'
    rw [owner_openGroup, members_openGroup, hr k c']
    split
    · next hc =>
      subst hc
      simp only [Option.some.injEq, exists_eq_left', Finset.notMem_empty, iff_false]
      exact fun hmem => h k ((hr k c').mpr hmem)
    · exact Iff.rfl

variable [DecidableEq K]

/-- Give `k` to the group `c`, if that group is open. -/
def attach (r : Registry K C) (k : K) (c : C) : Registry K C :=
  match r.members.get c with
  | some ks => ⟨r.owner.insert k c, r.members.insert c (insert k ks)⟩
  | none => r

/-- Take `k` from its owner, and close that group if nothing is left in it. -/
def detach (r : Registry K C) (k : K) : Registry K C :=
  match r.owner.get k with
  | some c =>
    match r.members.get c with
    | some ks =>
      if ks.erase k = ∅ then ⟨r.owner.remove k, r.members.remove c⟩
      else ⟨r.owner.remove k, r.members.insert c (ks.erase k)⟩
    | none => ⟨r.owner.remove k, r.members⟩
  | none => r

variable {r : Registry K C} {k : K} {c : C}

theorem attach_of_closed (h : r.members.get c = none) : r.attach k c = r := by
  simp [attach, h]

theorem attach_of_open {ks : Finset K} (h : r.members.get c = some ks) :
    r.attach k c = ⟨r.owner.insert k c, r.members.insert c (insert k ks)⟩ := by
  simp [attach, h]

@[simp] theorem owner_detach (k' : K) :
    (r.detach k).owner.get k' = if k' = k then none else r.owner.get k' := by
  unfold detach
  split
  · split
    · split <;> exact HashMap.get_remove _ _ _
    · exact HashMap.get_remove _ _ _
  · next h =>
    split
    · next hk => rw [hk, h]
    · rfl

/-- What detaching `k` does to the group `c'`: a group that owns `k` loses it, and is
closed if nothing is left; every other group is as before. -/
theorem members_detach (c' : C) :
    (r.detach k).members.get c' =
      if r.owner.get k = some c' then
        (r.members.get c').bind fun ks => if ks.erase k = ∅ then none else some (ks.erase k)
      else r.members.get c' := by
  unfold detach
  cases howner : r.owner.get k with
  | none => simp
  | some c =>
    cases hmem : r.members.get c with
    | none =>
      by_cases hc : c = c'
      · subst hc
        simp [hmem]
      · simp [hmem, hc]
    | some ks =>
      by_cases hc : c = c'
      · subst hc
        by_cases hempty : ks.erase k = ∅ <;> simp [hmem, hempty]
      · by_cases hempty : ks.erase k = ∅
        · simp [hmem, hempty, hc, HashMap.get_remove_of_ne (Ne.symm hc)]
        · simp [hmem, hempty, hc, HashMap.get_insert_of_ne (Ne.symm hc)]

theorem Consistent.detach (hr : Consistent r) (k : K) : Consistent (r.detach k) := by
  intro k' c'
  rw [owner_detach, members_detach]
  by_cases hk : k' = k
  · subst hk
    simp only [↓reduceIte, reduceCtorEq, false_iff, not_exists, not_and]
    intro ks hks hmem
    split at hks
    · obtain ⟨ks', -, hks'⟩ := Option.bind_eq_some_iff.mp hks
      split at hks'
      · cases hks'
      · cases hks'
        exact absurd hmem (Finset.notMem_erase k' ks')
    · next hne => exact hne ((hr k' c').mpr ⟨ks, hks, hmem⟩)
  · rw [if_neg hk, hr k' c']
    split
    · constructor
      · rintro ⟨ks, hks, hmem⟩
        have hmem' : k' ∈ ks.erase k := Finset.mem_erase.mpr ⟨hk, hmem⟩
        exact ⟨ks.erase k, by simp [hks, Finset.ne_empty_of_mem hmem'], hmem'⟩
      · rintro ⟨ks, hks, hmem⟩
        obtain ⟨ks', hks', hsplit⟩ := Option.bind_eq_some_iff.mp hks
        split at hsplit
        · cases hsplit
        · cases hsplit
          exact ⟨ks', hks', Finset.mem_of_mem_erase hmem⟩
    · exact Iff.rfl

/-- Attaching keeps consistency exactly when the group is closed (nothing happens) or
no other group owns the key. -/
theorem consistent_attach_iff (hr : Consistent r) :
    Consistent (r.attach k c) ↔
      r.members.get c = none ∨ r.owner.get k = none ∨ r.owner.get k = some c := by
  cases hmem : r.members.get c with
  | none => simp [attach_of_closed hmem, hr]
  | some ks =>
    rw [attach_of_open hmem]
    constructor
    · intro h
      cases howner : r.owner.get k with
      | none => exact .inr (.inl rfl)
      | some c₀ =>
        -- the old owner still holds `k`, so it must be the new one
        obtain ⟨ks₀, hks₀, hk₀⟩ := (hr k c₀).mp howner
        by_cases hc : c₀ = c
        · exact .inr (.inr (by rw [hc]))
        · have hback : (r.owner.insert k c).get k = some c₀ :=
            (h k c₀).mpr ⟨ks₀, by simp [HashMap.get_insert_of_ne hc, hks₀], hk₀⟩
          rw [HashMap.get_insert_self] at hback
          exact absurd (Option.some.inj hback).symm hc
    · intro h k' c'
      have hfree : ∀ ks', c' ≠ c → r.members.get c' = some ks' → k ∉ ks' := by
        rcases h with h | h | h
        · cases h
        · intro ks' _ hks' hmem'
          rw [(hr k c').mpr ⟨ks', hks', hmem'⟩] at h
          cases h
        · intro ks' hne hks'
          exact hr.not_mem_of_ne h (Ne.symm hne) hks'
      simp only [HashMap.get_insert]
      by_cases hk : k' = k <;> by_cases hc : c' = c
      · simp [hk, hc]
      · subst hk
        simp only [↓reduceIte, hc, Option.some.injEq, Ne.symm hc, false_iff, not_exists, not_and]
        exact fun ks' => hfree ks' hc
      · subst hc
        simp [hk, hr k' c', hmem]
      · simp [hk, hc, hr k' c']

/-! ## Lists of operations -/

/-- An operation on a registry. -/
inductive Op (K : Type u) (C : Type v)
  | openGroup (c : C)
  | closeGroup (c : C)
  | attach (k : K) (c : C)
  | detach (k : K)
deriving DecidableEq

def apply (r : Registry K C) : Op K C → Registry K C
  | .openGroup c => r.openGroup c
  | .closeGroup c => r.closeGroup c
  | .attach k c => r.attach k c
  | .detach k => r.detach k

def applyAll (r : Registry K C) (ops : List (Op K C)) : Registry K C := ops.foldl apply r

/-- The condition under which an operation keeps consistency. -/
def Op.Safe (r : Registry K C) : Op K C → Prop
  | .openGroup c | .closeGroup c => ∀ k, r.owner.get k ≠ some c
  | .attach k c => r.members.get c = none ∨ r.owner.get k = none ∨ r.owner.get k = some c
  | .detach _ => True

/-- Every operation is safe in the registry that it meets. -/
def SafeAll (r : Registry K C) : List (Op K C) → Prop
  | [] => True
  | op :: ops => op.Safe r ∧ SafeAll (r.apply op) ops

theorem consistent_apply_iff {op : Op K C} (hr : Consistent r) :
    Consistent (r.apply op) ↔ op.Safe r := by
  cases op with
  | openGroup c => exact consistent_openGroup_iff hr
  | closeGroup c => exact consistent_closeGroup_iff hr
  | attach k c => exact consistent_attach_iff hr
  | detach k => exact ⟨fun _ => trivial, fun _ => hr.detach k⟩

theorem safeAll_of_detach {ops : List (Op K C)} (h : ∀ op ∈ ops, ∃ k, op = .detach k) :
    SafeAll r ops := by
  induction ops generalizing r with
  | nil => trivial
  | cons op ops ih =>
    obtain ⟨k, rfl⟩ := h op (by simp)
    exact ⟨trivial, ih fun op hop => h op (by simp [hop])⟩

@[simp] theorem applyAll_nil (r : Registry K C) : r.applyAll [] = r := rfl

@[simp] theorem applyAll_cons (r : Registry K C) (op : Op K C) (ops : List (Op K C)) :
    r.applyAll (op :: ops) = (r.apply op).applyAll ops := rfl

theorem applyAll_append (r : Registry K C) (ops ops' : List (Op K C)) :
    r.applyAll (ops ++ ops') = (r.applyAll ops).applyAll ops' := List.foldl_append

theorem Consistent.applyAll {ops : List (Op K C)} (hr : Consistent r) (hsafe : SafeAll r ops) :
    Consistent (r.applyAll ops) := by
  induction ops generalizing r with
  | nil => exact hr
  | cons op ops ih => exact ih ((consistent_apply_iff hr).mpr hsafe.1) hsafe.2

end Registry
