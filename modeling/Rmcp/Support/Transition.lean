import Mathlib.Tactic.Common

/-!
# Runs of a transition function

A system is a partial step function `step : σ → α → Option σ` over states `σ` and
actions `α`; `none` means that the action is not enabled, or that the system has
stopped. A run is a list of actions, each enabled in the state it meets.

Results:
1. `Run.invariant`: a property of the actions taken so far and of the state they
   lead to holds of every run when every single step keeps it.
2. `run_of_exec`: executing a list of actions gives a run, so a concrete run is
   shown by evaluation.
3. `Run.observe_concat`: what is observed along a run with one more step.
4. `Run.invariant_always`: the rule of the first result, for runs whose actions all meet a
   condition.
5. `Run.always_iff`: two conditions that are the same one as long as they have been met.
6. `always_reached_iff`: a property of the states that a list of actions leads through, as a
   condition on its steps.
7. `exec_map_iff`: a map of states takes the executions of one system to those of another
   exactly as long as it takes each of their steps to a step.
-/

namespace Transition

universe u v w

variable {σ : Type u} {α : Type v}

/-- `Run step init as s`: the actions `as`, taken in order from `init`, lead to `s`. -/
inductive Run (step : σ → α → Option σ) (init : σ) : List α → σ → Prop
  | nil : Run step init [] init
  | snoc {as : List α} {s s' : σ} {a : α} :
      Run step init as s → step s a = some s' → Run step init (as ++ [a]) s'

/-- Some run leads from `init` to `s`. -/
def Reachable (step : σ → α → Option σ) (init s : σ) : Prop := ∃ as, Run step init as s

/-- Execute a list of actions. -/
def exec (step : σ → α → Option σ) : σ → List α → Option σ
  | s, [] => some s
  | s, a :: as => (step s a).bind (exec step · as)

/-- What is observed along a list of actions: `obs` says what one of them shows in the state
it meets. -/
def observe {β : Type w} (step : σ → α → Option σ) (obs : σ → α → List β) : σ → List α → List β
  | _, [] => []
  | s, a :: as => obs s a ++ (step s a).elim [] (observe step obs · as)

/-- Every action of a list meets the condition `C` in the state that it is taken in. -/
def Always (step : σ → α → Option σ) (C : σ → α → Prop) : σ → List α → Prop
  | _, [] => True
  | s, a :: as => C s a ∧ ∀ s', step s a = some s' → Always step C s' as

variable {step : σ → α → Option σ} {init s : σ} {as : List α}

theorem Run.append {bs : List α} {s' : σ} (h : Run step init as s) (h' : Run step s bs s') :
    Run step init (as ++ bs) s' := by
  induction h' with
  | nil => simpa using h
  | snoc _ hs ih =>
    rw [← List.append_assoc]
    exact ih.snoc hs

theorem Run.single {a : α} {s' : σ} (h : step s a = some s') : Run step s [a] s' := Run.nil.snoc h

theorem run_of_exec {s' : σ} (h : exec step s as = some s') : Run step s as s' := by
  induction as generalizing s with
  | nil =>
    cases h
    exact .nil
  | cons a as ih =>
    obtain ⟨t, ht, htail⟩ := Option.bind_eq_some_iff.mp h
    exact (Run.single ht).append (ih htail)

/-- After a run the observations go on from the state it leads to. -/
theorem Run.observe_append {β : Type w} {obs : σ → α → List β} (h : Run step init as s)
    (bs : List α) :
    observe step obs init (as ++ bs) = observe step obs init as ++ observe step obs s bs := by
  induction h generalizing bs with
  | nil => rfl
  | @snoc as s s' a _ hs ih =>
    have hstep : ∀ cs, observe step obs s (a :: cs) = obs s a ++ observe step obs s' cs := by
      intro cs
      simp [observe, hs]
    rw [List.append_assoc, List.singleton_append, ih, ih, hstep, hstep]
    simp [observe]

theorem Run.observe_concat {β : Type w} {obs : σ → α → List β} {a : α} {s' : σ}
    (h : Run step init as s) (hs : step s a = some s') :
    observe step obs init (as ++ [a]) = observe step obs init as ++ obs s a := by
  rw [h.observe_append]
  simp [observe, hs]

/-- The invariant rule: what holds at the start and is kept by every step holds of
every run. -/
theorem Run.invariant {P : List α → σ → Prop} (h : Run step init as s) (h0 : P [] init)
    (hstep : ∀ {as : List α} {s s' : σ} {a : α},
      Run step init as s → P as s → step s a = some s' → P (as ++ [a]) s') : P as s := by
  induction h with
  | nil => exact h0
  | snoc hr hs ih => exact hstep hr ih hs

theorem always_cons {C : σ → α → Prop} {a : α} {s' : σ} (ha : C s a) (hs : step s a = some s')
    (has : Always step C s' as) : Always step C s (a :: as) := by
  refine ⟨ha, fun s₁ hs₁ => ?_⟩
  rw [hs] at hs₁
  cases hs₁
  exact has

theorem Run.always_append {C : σ → α → Prop} (h : Run step init as s) (bs : List α) :
    Always step C init (as ++ bs) ↔ Always step C init as ∧ Always step C s bs := by
  induction h generalizing bs with
  | nil => simp [Always]
  | @snoc as s s' a _ hs ih =>
    have hstep : ∀ cs, Always step C s (a :: cs) ↔ C s a ∧ Always step C s' cs := by
      intro cs
      simp [Always, hs]
    have hone : Always step C s [a] ↔ C s a := by
      rw [hstep]
      exact and_iff_left trivial
    rw [List.append_assoc, List.singleton_append, ih, ih, hstep, hone, and_assoc]

theorem Run.always_concat {C : σ → α → Prop} {a : α} (h : Run step init as s) :
    Always step C init (as ++ [a]) ↔ Always step C init as ∧ C s a := by
  rw [h.always_append]
  exact and_congr_right fun _ => and_iff_left fun _ _ => trivial

/-- A condition on the actions alone. -/
theorem Run.always_const {C : α → Prop} (h : Run step init as s) :
    Always step (fun _ a => C a) init as ↔ ∀ a ∈ as, C a := by
  induction h with
  | nil => simp [Always]
  | snoc hr _ ih => simp [hr.always_concat, ih, or_imp, forall_and]

/-- The invariant rule for runs whose actions all meet a condition. -/
theorem Run.invariant_always {C : σ → α → Prop} {P : List α → σ → Prop}
    (h : Run step init as s) (hC : Always step C init as) (h0 : P [] init)
    (hstep : ∀ {as : List α} {s s' : σ} {a : α},
      Run step init as s → P as s → C s a → step s a = some s' → P (as ++ [a]) s') : P as s := by
  refine h.invariant (P := fun as s => Always step C init as → P as s) (fun _ => h0) ?_ hC
  intro as s s' a hrun ih hs hC
  obtain ⟨hbefore, ha⟩ := hrun.always_concat.mp hC
  exact hstep hrun (ih hbefore) ha hs

/-- Two conditions come to the same along a run, when they do in every state that is reached
while they are met. -/
theorem Run.always_iff {C D : σ → α → Prop} {P : List α → σ → Prop} (h : Run step init as s)
    (h0 : P [] init)
    (hstep : ∀ {as : List α} {s s' : σ} {a : α}, Run step init as s → P as s →
      step s a = some s' → (D s a ↔ C s a) ∧ (C s a → P (as ++ [a]) s')) :
    Always step D init as ↔ Always step C init as := by
  suffices hboth : (Always step D init as ↔ Always step C init as) ∧
      (Always step C init as → P as s) from hboth.1
  refine h.invariant (P := fun as s => (Always step D init as ↔ Always step C init as) ∧
    (Always step C init as → P as s)) ⟨Iff.rfl, fun _ => h0⟩ ?_
  intro as s s' a hrun ⟨hsame, hkept⟩ hs
  rw [hrun.always_concat, hrun.always_concat, hsame]
  refine ⟨and_congr_right fun hC => (hstep hrun (hkept hC) hs).1, ?_⟩
  rintro ⟨hC, ha⟩
  exact (hstep hrun (hkept hC) hs).2 ha

/-- What holds of all states on the way holds of the first one, and every step leads to a state
that it holds of. -/
theorem always_reached_iff {Q : σ → Prop} :
    (∀ bs t, bs <+: as → exec step s bs = some t → Q t) ↔
      Q s ∧ Always step (fun s a => ∀ s', step s a = some s' → Q s') s as := by
  induction as generalizing s with
  | nil =>
    refine ⟨fun h => ⟨h [] s List.prefix_rfl rfl, trivial⟩, ?_⟩
    rintro ⟨hs, -⟩ bs t hbs ht
    obtain rfl := List.prefix_nil.mp hbs
    cases ht
    exact hs
  | cons a as ih =>
    constructor
    · intro h
      refine ⟨h [] s List.nil_prefix rfl, fun s' hs' => ?_, fun s' hs' => (ih.mp ?_).2⟩
      · exact h [a] s' (by simp) (by simp [exec, hs'])
      · intro bs t hbs ht
        exact h (a :: bs) t (List.prefix_cons_inj a |>.mpr hbs) (by simp [exec, hs', ht])
    · rintro ⟨hs, ha, hrest⟩ bs t hbs ht
      cases bs with
      | nil =>
        cases ht
        exact hs
      | cons b bs =>
        obtain ⟨rfl, hrestPrefix⟩ := List.cons_prefix_cons.mp hbs
        obtain ⟨s', hs', ht⟩ := Option.bind_eq_some_iff.mp ht
        exact ih.mpr ⟨ha s' hs', hrest s' hs'⟩ bs t hrestPrefix ht

theorem exec_map_iff {τ : Type w} {stepA : σ → α → Option σ} {stepB : τ → α → Option τ}
    {f : σ → τ} {C : τ → α → Prop} {s : σ}
    (hstep : ∀ a ∈ as, ∀ s, (stepA s a).map f = stepB (f s) a ↔ C (f s) a) :
    (∀ bs, bs <+: as → (exec stepA s bs).map f = exec stepB (f s) bs) ↔
      Always stepB C (f s) as := by
  induction as generalizing s with
  | nil => simp [Always, exec]
  | cons a as ih =>
    have ih' := fun s => ih (s := s) fun b hb => hstep b (List.mem_cons_of_mem a hb)
    have hfirst := hstep a List.mem_cons_self s
    constructor
    · intro h
      have hone : (stepA s a).map f = stepB (f s) a := by
        simpa [exec] using h [a] (by simp)
      refine ⟨hfirst.mp hone, fun t ht => ?_⟩
      rw [← hone] at ht
      obtain ⟨s', hs', rfl⟩ := Option.map_eq_some_iff.mp ht
      refine (ih' s').mp fun bs hbs => ?_
      simpa [exec, hs', ← hone] using h (a :: bs) (List.prefix_cons_inj a |>.mpr hbs)
    · rintro ⟨ha, hrest⟩ bs hbs
      have hone := hfirst.mpr ha
      cases bs with
      | nil => rfl
      | cons b bs =>
        obtain ⟨rfl, hrestPrefix⟩ := List.cons_prefix_cons.mp hbs
        cases hs' : stepA s b with
        | none => simp [exec, hs', ← hone]
        | some s' =>
          have ht : stepB (f s) b = some (f s') := by simp [← hone, hs']
          simpa [exec, hs', ht] using (ih' s').mpr (hrest (f s') ht) bs hrestPrefix

/-- The invariant rule for a property of the state alone. -/
theorem Reachable.invariant {P : σ → Prop} (h : Reachable step init s) (h0 : P init)
    (hstep : ∀ {s s' : σ} {a : α}, P s → step s a = some s' → P s') : P s := by
  obtain ⟨as, hr⟩ := h
  exact Run.invariant (P := fun _ s => P s) hr h0 fun _ hp hs => hstep hp hs

end Transition
