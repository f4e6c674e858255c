import Rmcp.Support.LockProg
import Mathlib.Data.List.Basic

/-!
# Tasks that share read-write locks

Many tasks run one program each, over the same locks. A step runs one operation of one task, and
which task that is may change at every operation. A task waits while a guard is in its way,
whoever holds it; it may get its guard before another one that waits for longer. What a task asks
is answered afresh every time, and what has been asked and answered is kept in a record.

Result: `Pool.step_advance`, a step of the pool is an operation of one program.
-/

namespace LockProg

universe u

variable {S : Signature} {ρ : Type} {ι : Type u}

/-- A question that has been answered. -/
structure Exchange (S : Signature) where
  question : S.Question
  answer : S.Answer question

structure Pool (S : Signature) (ι : Type u) (ρ : Type) where
  memory : Memory S
  guards : List (ι × S.Lock × Mode)
  progs : ι → Prog S ρ
  asked : List (Exchange S)

namespace Pool

/-- No task has started. -/
def start (p : Prog S ρ) (memory : Memory S) : Pool S ι ρ := ⟨memory, [], fun _ => p, []⟩

/-- Some guard that is held stands in the way. -/
def blocked (pool : Pool S ι ρ) (l : S.Lock) (m : Mode) : Bool :=
  pool.guards.any fun guard => guard.2.1 = l && m.conflicts guard.2.2

variable [DecidableEq ι]

/-- The next operation of a task. A task that panics drops its guards. -/
def step (pool : Pool S ι ρ) (turn : ι × ((q : S.Question) → S.Answer q)) :
    Option (Pool S ι ρ) :=
  let (i, env) := turn
  let goOn := fun p => Function.update pool.progs i p
  match pool.progs i with
  | .ret _ => none
  | .panicked =>
    if pool.guards.any (·.1 = i) then some { pool with guards := pool.guards.filter (·.1 ≠ i) }
    else none
  | .acquire l m k =>
    if pool.blocked l m then none
    else some { pool with guards := (i, l, m) :: pool.guards, progs := goOn k }
  | .release l m k => some { pool with guards := pool.guards.erase (i, l, m), progs := goOn k }
  | .load l k => some { pool with progs := goOn (k (pool.memory l)) }
  | .store l v k =>
    some { pool with memory := Function.update pool.memory l v, progs := goOn k }
  | .ask q k =>
    some { pool with asked := pool.asked ++ [⟨q, env q⟩], progs := goOn (k (env q)) }

end Pool

/-- One operation of a program: what is stored before and after it, and what is asked. -/
inductive Advance (env : (q : S.Question) → S.Answer q) :
    Prog S ρ → Memory S → Prog S ρ → Memory S → List (Exchange S) → Prop
  | unwind (memory : Memory S) : Advance env .panicked memory .panicked memory []
  | acquire (l : S.Lock) (m : Mode) (k : Prog S ρ) (memory : Memory S) :
      Advance env (.acquire l m k) memory k memory []
  | release (l : S.Lock) (m : Mode) (k : Prog S ρ) (memory : Memory S) :
      Advance env (.release l m k) memory k memory []
  | load (l : S.Lock) (k : S.Data l → Prog S ρ) (memory : Memory S) :
      Advance env (.load l k) memory (k (memory l)) memory []
  | store (l : S.Lock) (v : S.Data l) (k : Prog S ρ) (memory : Memory S) :
      Advance env (.store l v k) memory k (Function.update memory l v) []
  | ask (q : S.Question) (k : S.Answer q → Prog S ρ) (memory : Memory S) :
      Advance env (.ask q k) memory (k (env q)) memory [⟨q, env q⟩]

/-- A step of the pool is one operation of one program; the other programs stay where they are. -/
theorem Pool.step_advance [DecidableEq ι] {pool pool' : Pool S ι ρ} {i : ι}
    {env : (q : S.Question) → S.Answer q} (h : pool.step (i, env) = some pool') :
    ∃ p new, Advance env (pool.progs i) pool.memory p pool'.memory new ∧
      pool'.progs = Function.update pool.progs i p ∧ pool'.asked = pool.asked ++ new := by
  simp only [Pool.step] at h
  cases hprog : pool.progs i with
  | ret result =>
    rw [hprog] at h
    cases h
  | panicked =>
    simp only [hprog] at h
    split at h
    · cases h
      refine ⟨.panicked, [], .unwind _, ?_, (List.append_nil _).symm⟩
      rw [← hprog, Function.update_eq_self]
    · cases h
  | acquire l m k =>
    simp only [hprog] at h
    split at h
    · cases h
    · cases h
      exact ⟨k, [], .acquire l m k _, rfl, (List.append_nil _).symm⟩
  | release l m k =>
    simp only [hprog] at h
    cases h
    exact ⟨k, [], .release l m k _, rfl, (List.append_nil _).symm⟩
  | load l k =>
    simp only [hprog] at h
    cases h
    exact ⟨k _, [], .load l k _, rfl, (List.append_nil _).symm⟩
  | store l v k =>
    simp only [hprog] at h
    cases h
    exact ⟨k, [], .store l v k _, rfl, (List.append_nil _).symm⟩
  | ask q k =>
    simp only [hprog] at h
    cases h
    exact ⟨k _, _, .ask q k _, rfl, rfl⟩

end LockProg
