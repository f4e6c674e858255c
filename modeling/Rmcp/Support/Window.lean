import Mathlib.Data.List.DropRight

/-!
# Bounded windows of a log

A cache of `c` places that is fed one value after the other, and drops the oldest value when
it is full, holds the last `c` values of the log.

Results:
1. `push_rtake`: a push keeps the window the end of the log.
2. `getElem?_rtake`: the place in the log of what the window holds.
-/

universe u

namespace Window

variable {α : Type u}

/-- Add a value; a full window drops its oldest one first. -/
def push (c : Nat) (w : List α) (a : α) : List α :=
  if c ≤ w.length then w.tail ++ [a] else w ++ [a]

theorem length_rtake (l : List α) (c : Nat) : (l.rtake c).length = min l.length c := by
  rw [List.rtake, List.length_drop]
  omega

theorem push_rtake {c : Nat} (hc : 0 < c) (l : List α) (a : α) :
    push c (l.rtake c) a = (l ++ [a]).rtake c := by
  obtain ⟨c, rfl⟩ := Nat.exists_eq_succ_of_ne_zero hc.ne'
  rw [Nat.succ_eq_add_one, List.rtake_concat_succ, push, length_rtake]
  by_cases hfull : c + 1 ≤ l.length
  · rw [if_pos (by omega), List.rtake, List.rtake, List.tail_drop]
    congr 2
    omega
  · rw [if_neg (by omega), List.rtake, List.rtake]
    congr 2
    omega

theorem rtake_suffix (l : List α) (c : Nat) : l.rtake c <:+ l := List.drop_suffix _ _

theorem getElem?_rtake (l : List α) (c p : Nat) :
    (l.rtake c)[p]? = l[l.length - min l.length c + p]? := by
  rw [List.rtake, List.getElem?_drop]
  congr 1
  omega

end Window
