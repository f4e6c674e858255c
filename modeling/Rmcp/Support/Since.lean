import Mathlib.Tactic.Common

/-!
# What has held since an event

Histories are lists of events, the latest last. `Since p q l` says that some event of `l` is a
`p`, and that no `q` came after it.

Results:
1. `since_concat`: one more event.
2. `concat_eq_split`: the events after a given one, with one more event.
3. `between_concat`: what comes between two events, with one more event.
4. `filterMap_concat`: what is read of a history, with one more event.
-/

universe u v

namespace History

variable {α : Type u} {β : Type v} {p q : α → Prop}

/-- Some event is a `p`, and no later one is a `q`. -/
def Since (p q : α → Prop) (l : List α) : Prop :=
  ∃ before a after, l = before ++ a :: after ∧ p a ∧ ∀ b ∈ after, ¬ q b

theorem not_since_nil : ¬ Since p q [] := by
  rintro ⟨before, a, after, heq, -⟩
  simp at heq

/-- A split of a history with one more event is at that event, or a split of the history
before it. -/
theorem concat_eq_split {l before after : List α} {a b : α} :
    l ++ [a] = before ++ b :: after ↔
      (after = [] ∧ l = before ∧ a = b) ∨
        ∃ after', after = after' ++ [a] ∧ l = before ++ b :: after' := by
  constructor
  · intro heq
    rcases List.eq_nil_or_concat after with rfl | ⟨after', c, rfl⟩
    · obtain ⟨rfl, hab⟩ := List.append_inj' heq rfl
      exact .inl ⟨rfl, rfl, List.head_eq_of_cons_eq hab⟩
    · rw [List.concat_eq_append, ← List.cons_append, ← List.append_assoc] at heq
      obtain ⟨rfl, hac⟩ := List.append_inj' heq rfl
      obtain rfl := List.head_eq_of_cons_eq hac
      exact .inr ⟨after', List.concat_eq_append .., rfl⟩
  · rintro (⟨rfl, rfl, rfl⟩ | ⟨after', rfl, rfl⟩)
    · rfl
    · simp

theorem since_concat {l : List α} {a : α} :
    Since p q (l ++ [a]) ↔ p a ∨ (Since p q l ∧ ¬ q a) := by
  constructor
  · rintro ⟨before, b, after, heq, hp, hq⟩
    rcases concat_eq_split.mp heq with ⟨rfl, rfl, rfl⟩ | ⟨after', rfl, rfl⟩
    · exact .inl hp
    · exact .inr ⟨⟨before, b, after', rfl, hp, fun c hc => hq c (by simp [hc])⟩, hq a (by simp)⟩
  · rintro (hp | ⟨⟨before, b, after, rfl, hp, hq⟩, ha⟩)
    · exact ⟨l, a, [], rfl, hp, by simp⟩
    · refine ⟨before, b, after ++ [a], by simp, hp, fun c hc => ?_⟩
      rcases List.mem_append.mp hc with hc | hc
      · exact hq c hc
      · rw [List.mem_singleton.mp hc]
        exact ha

/-- Whenever a `q` comes after a `p`, there is an `r` between them. -/
def Between (p r q : α → Prop) (l : List α) : Prop :=
  ∀ before a middle b after, l = before ++ a :: (middle ++ b :: after) → p a → q b →
    ∃ c ∈ middle, r c

theorem between_nil {r : α → Prop} : Between p r q [] := by
  intro before a middle b after heq
  simp at heq

theorem between_concat {r : α → Prop} {l : List α} {a : α} :
    Between p r q (l ++ [a]) ↔ Between p r q l ∧ (q a → ¬ Since p r l) := by
  constructor
  · refine fun h => ⟨fun before b middle c after heq => ?_, ?_⟩
    · exact h before b middle c (after ++ [a]) (by simp [heq])
    · rintro hq ⟨before, b, middle, rfl, hp, hr⟩
      obtain ⟨c, hc, hrc⟩ := h before b middle a [] (by simp) hp hq
      exact hr c hc hrc
  · rintro ⟨h, hlast⟩ before b middle c after heq hp hq
    rw [← List.cons_append, ← List.append_assoc] at heq
    rcases concat_eq_split.mp heq with ⟨-, rfl, rfl⟩ | ⟨after', rfl, rfl⟩
    · by_contra hnone
      refine hlast hq ⟨before, b, middle, rfl, hp, fun c hc hr => hnone ⟨c, hc, hr⟩⟩
    · exact h before b middle c after' (by simp) hp hq

/-- The first event of a history that `f` is defined on, with one more event. -/
theorem findSome?_concat (f : α → Option β) (l : List α) (a : α) :
    (l ++ [a]).findSome? f = (l.findSome? f).or (f a) := by
  rw [List.findSome?_append]
  simp

/-- The last event of a history that `f` is defined on, with one more event. -/
theorem findSome?_reverse_concat (f : α → Option β) (l : List α) (a : α) :
    (l ++ [a]).reverse.findSome? f = (f a <|> l.reverse.findSome? f) := by
  rw [List.reverse_concat, List.findSome?_cons]
  cases f a <;> rfl

/-- What `f` reads of a history, with one more event. -/
theorem filterMap_concat (f : α → Option β) (l : List α) (a : α) :
    (l ++ [a]).filterMap f = l.filterMap f ++ (f a).toList := by
  rw [List.filterMap_append]
  cases h : f a <;> simp [h]

end History
