import Rmcp.Support.Transition
import Mathlib.Logic.Function.Basic

/-!
# A task that takes read-write locks

A program takes and drops guards of locks, loads and stores what the locks protect, and asks
its environment. One task runs it: nobody else holds a guard, so the task waits only when it
wants a lock in a mode that conflicts with a guard of its own, and then it waits forever.

Results:
1. `run_bind`, `Outcome.andThen_eq_waits`: running a program part by part.
2. `run_of_step`: the outcome of a program does not change while it runs.
3. `waits_iff`: a program reaches a state in which it waits on itself iff that is its outcome.
4. `asked_bind`: what a program asks its environment, part by part.
-/

namespace LockProg

/-- Locks with what they protect, and questions with what may be answered. -/
structure Signature where
  Lock : Type
  [decEq : DecidableEq Lock]
  Data : Lock → Type
  Question : Type
  Answer : Question → Type

instance (S : Signature) : DecidableEq S.Lock := S.decEq

inductive Mode
  | read
  | write
deriving DecidableEq

/-- Only two read guards can be held at once. -/
def Mode.conflicts : Mode → Mode → Bool
  | .read, .read => false
  | .read, .write | .write, .read | .write, .write => true

/-- A program with results in `ρ`. -/
inductive Prog (S : Signature) (ρ : Type)
  | ret (result : ρ)
  | panicked
  | acquire (l : S.Lock) (m : Mode) (k : Prog S ρ)
  | release (l : S.Lock) (m : Mode) (k : Prog S ρ)
  | load (l : S.Lock) (k : S.Data l → Prog S ρ)
  | store (l : S.Lock) (v : S.Data l) (k : Prog S ρ)
  | ask (q : S.Question) (k : S.Answer q → Prog S ρ)

variable {S : Signature} {ρ ρ' : Type}

namespace Prog

def bind : Prog S ρ → (ρ → Prog S ρ') → Prog S ρ'
  | .ret result, f => f result
  | .panicked, _ => .panicked
  | .acquire l m k, f => .acquire l m (k.bind f)
  | .release l m k, f => .release l m (k.bind f)
  | .load l k, f => .load l fun v => (k v).bind f
  | .store l v k, f => .store l v (k.bind f)
  | .ask q k, f => .ask q fun a => (k a).bind f

instance : Monad (Prog S) where
  pure := .ret
  bind := .bind

end Prog

/-- Take a guard. -/
abbrev acquire (l : S.Lock) (m : Mode) : Prog S Unit := .acquire l m (.ret ())

/-- Drop a guard. -/
abbrev release (l : S.Lock) (m : Mode) : Prog S Unit := .release l m (.ret ())

abbrev load (l : S.Lock) : Prog S (S.Data l) := .load l .ret

abbrev ask (q : S.Question) : Prog S (S.Answer q) := .ask q .ret

/-- `lock.read().await.clone()`: the guard lives for the one statement. -/
abbrev readOnce (l : S.Lock) : Prog S (S.Data l) :=
  .acquire l .read (.load l fun v => .release l .read (.ret v))

/-- `*lock.write().await = v`. -/
abbrev writeOnce (l : S.Lock) (v : S.Data l) : Prog S Unit :=
  .acquire l .write (.store l v (.release l .write (.ret ())))

/-- `lock.write().await.take()`, where `v` is what is left behind. -/
abbrev replaceOnce (l : S.Lock) (v : S.Data l) : Prog S (S.Data l) :=
  .acquire l .write (.load l fun old => .store l v (.release l .write (.ret old)))

/-! ## Running a program -/

abbrev Held (S : Signature) := List (S.Lock × Mode)

abbrev Memory (S : Signature) := (l : S.Lock) → S.Data l

/-- Some guard that is held stands in the way. -/
def conflict (held : Held S) (l : S.Lock) (m : Mode) : Bool :=
  held.any fun guard => guard.1 = l && m.conflicts guard.2

/-- How a program ends, if it ends. -/
inductive Outcome (S : Signature) (ρ : Type)
  | returned (result : ρ) (held : Held S) (memory : Memory S)
  | panicked
  | waits (l : S.Lock)

def Outcome.andThen (o : Outcome S ρ) (f : ρ → Held S → Memory S → Outcome S ρ') :
    Outcome S ρ' :=
  match o with
  | .returned result held memory => f result held memory
  | .panicked => .panicked
  | .waits l => .waits l

@[simp] theorem Outcome.andThen_returned (result : ρ) (held : Held S) (memory : Memory S)
    (f : ρ → Held S → Memory S → Outcome S ρ') :
    (Outcome.returned result held memory).andThen f = f result held memory := rfl

@[simp] theorem Outcome.andThen_panicked (f : ρ → Held S → Memory S → Outcome S ρ') :
    (Outcome.panicked : Outcome S ρ).andThen f = .panicked := rfl

@[simp] theorem Outcome.andThen_waits (l : S.Lock) (f : ρ → Held S → Memory S → Outcome S ρ') :
    (Outcome.waits l : Outcome S ρ).andThen f = .waits l := rfl

/-- What runs in two parts waits in the first one, or, having finished it, in the second. -/
theorem Outcome.andThen_eq_waits {o : Outcome S ρ} {f : ρ → Held S → Memory S → Outcome S ρ'}
    {l : S.Lock} : o.andThen f = .waits l ↔ o = .waits l ∨
      ∃ result held memory, o = .returned result held memory ∧ f result held memory = .waits l := by
  cases o with
  | returned result held memory => simp
  | panicked => simp
  | waits l' => simp

section

variable (env : (q : S.Question) → S.Answer q)

/-- Run a program to its end, under the guards that are held and from what is stored. -/
def run : Prog S ρ → Held S → Memory S → Outcome S ρ
  | .ret result, held, memory => .returned result held memory
  | .panicked, _, _ => .panicked
  | .acquire l m k, held, memory =>
    if conflict held l m then .waits l else run k ((l, m) :: held) memory
  | .release l m k, held, memory => run k (held.erase (l, m)) memory
  | .load l k, held, memory => run (k (memory l)) held memory
  | .store l v k, held, memory => run k held (Function.update memory l v)
  | .ask q k, held, memory => run (k (env q)) held memory

variable (held : Held S) (memory : Memory S)

@[simp] theorem run_pure (result : ρ) :
    run env (pure result : Prog S ρ) held memory = .returned result held memory := rfl

@[simp] theorem run_ret (result : ρ) :
    run env (.ret result : Prog S ρ) held memory = .returned result held memory := rfl

@[simp] theorem run_panicked :
    run env (.panicked : Prog S ρ) held memory = .panicked := rfl

@[simp] theorem run_acquire (l : S.Lock) (m : Mode) (k : Prog S ρ) :
    run env (.acquire l m k) held memory =
      if conflict held l m then .waits l else run env k ((l, m) :: held) memory := rfl

@[simp] theorem run_release (l : S.Lock) (m : Mode) (k : Prog S ρ) :
    run env (.release l m k) held memory = run env k (held.erase (l, m)) memory := rfl

@[simp] theorem run_load (l : S.Lock) (k : S.Data l → Prog S ρ) :
    run env (.load l k) held memory = run env (k (memory l)) held memory := rfl

@[simp] theorem run_store (l : S.Lock) (v : S.Data l) (k : Prog S ρ) :
    run env (.store l v k) held memory = run env k held (Function.update memory l v) := rfl

@[simp] theorem run_ask (q : S.Question) (k : S.Answer q → Prog S ρ) :
    run env (.ask q k) held memory = run env (k (env q)) held memory := rfl

@[simp] theorem run_bind (p : Prog S ρ) (f : ρ → Prog S ρ') :
    run env (p >>= f) held memory =
      (run env p held memory).andThen fun result held memory => run env (f result) held memory := by
  show run env (p.bind f) held memory = _
  induction p generalizing held memory with
  | ret result => rfl
  | panicked => rfl
  | acquire l m k ih =>
    simp only [Prog.bind, run]
    split
    · rfl
    · exact ih _ _
  | release l m k ih => exact ih _ _
  | load l k ih => exact ih _ _ _
  | store l v k ih => exact ih _ _
  | ask q k ih => exact ih _ _ _

end

/-! ## What a program asks -/

section

variable (env : (q : S.Question) → S.Answer q)

/-- The questions that a program comes to ask, in order. -/
def asked : Prog S ρ → Held S → Memory S → List S.Question
  | .ret _, _, _ | .panicked, _, _ => []
  | .acquire l m k, held, memory =>
    if conflict held l m then [] else asked k ((l, m) :: held) memory
  | .release l m k, held, memory => asked k (held.erase (l, m)) memory
  | .load l k, held, memory => asked (k (memory l)) held memory
  | .store l v k, held, memory => asked k held (Function.update memory l v)
  | .ask q k, held, memory => q :: asked (k (env q)) held memory

variable (held : Held S) (memory : Memory S)

@[simp] theorem asked_pure (result : ρ) : asked env (pure result : Prog S ρ) held memory = [] := rfl

@[simp] theorem asked_ret (result : ρ) : asked env (.ret result : Prog S ρ) held memory = [] := rfl

@[simp] theorem asked_panicked : asked env (.panicked : Prog S ρ) held memory = [] := rfl

@[simp] theorem asked_acquire (l : S.Lock) (m : Mode) (k : Prog S ρ) :
    asked env (.acquire l m k) held memory =
      if conflict held l m then [] else asked env k ((l, m) :: held) memory := rfl

@[simp] theorem asked_release (l : S.Lock) (m : Mode) (k : Prog S ρ) :
    asked env (.release l m k) held memory = asked env k (held.erase (l, m)) memory := rfl

@[simp] theorem asked_load (l : S.Lock) (k : S.Data l → Prog S ρ) :
    asked env (.load l k) held memory = asked env (k (memory l)) held memory := rfl

@[simp] theorem asked_store (l : S.Lock) (v : S.Data l) (k : Prog S ρ) :
    asked env (.store l v k) held memory = asked env k held (Function.update memory l v) := rfl

@[simp] theorem asked_ask (q : S.Question) (k : S.Answer q → Prog S ρ) :
    asked env (.ask q k) held memory = q :: asked env (k (env q)) held memory := rfl

/-- What a program that has come to an end goes on to ask with `f`. -/
def Outcome.asks (env : (q : S.Question) → S.Answer q) (o : Outcome S ρ) (f : ρ → Prog S ρ') :
    List S.Question :=
  match o with
  | .returned result held memory => asked env (f result) held memory
  | .panicked | .waits _ => []

@[simp] theorem Outcome.asks_returned (result : ρ) (f : ρ → Prog S ρ') :
    (Outcome.returned result held memory).asks env f = asked env (f result) held memory := rfl

@[simp] theorem Outcome.asks_panicked (f : ρ → Prog S ρ') :
    (Outcome.panicked : Outcome S ρ).asks env f = [] := rfl

@[simp] theorem Outcome.asks_waits (l : S.Lock) (f : ρ → Prog S ρ') :
    (Outcome.waits l : Outcome S ρ).asks env f = [] := rfl

@[simp] theorem asked_bind (p : Prog S ρ) (f : ρ → Prog S ρ') :
    asked env (p >>= f) held memory =
      asked env p held memory ++ (run env p held memory).asks env f := by
  show asked env (p.bind f) held memory = _
  induction p generalizing held memory with
  | ret result => rfl
  | panicked => rfl
  | acquire l m k ih =>
    simp only [Prog.bind, asked, run]
    split
    · rfl
    · exact ih _ _
  | release l m k ih => exact ih _ _
  | load l k ih => exact ih _ _ _
  | store l v k ih => exact ih _ _
  | ask q k ih => exact congrArg (q :: ·) (ih _ _ _)

end

/-! ## The states that a task goes through -/

/-- A task: its guards, what is stored, and what is left to do. -/
structure Config (S : Signature) (ρ : Type) where
  held : Held S
  memory : Memory S
  prog : Prog S ρ

/-- A task that has not started holds no guard. -/
def Config.start (p : Prog S ρ) (memory : Memory S) : Config S ρ := ⟨[], memory, p⟩

/-- One step of the task. There is none while it waits. -/
def step (env : (q : S.Question) → S.Answer q) (c : Config S ρ) (_ : Unit) :
    Option (Config S ρ) :=
  match c.prog with
  | .ret _ | .panicked => none
  | .acquire l m k =>
    if conflict c.held l m then none else some ⟨(l, m) :: c.held, c.memory, k⟩
  | .release l m k => some ⟨c.held.erase (l, m), c.memory, k⟩
  | .load l k => some ⟨c.held, c.memory, k (c.memory l)⟩
  | .store l v k => some ⟨c.held, Function.update c.memory l v, k⟩
  | .ask q k => some ⟨c.held, c.memory, k (env q)⟩

/-- The task wants a lock in a mode that conflicts with a guard that it still holds. -/
def Config.WaitsOnItself (c : Config S ρ) : Prop :=
  ∃ l m k, c.prog = .acquire l m k ∧ conflict c.held l m = true

variable {env : (q : S.Question) → S.Answer q}

theorem run_of_step {c c' : Config S ρ} {u : Unit} (h : step env c u = some c') :
    run env c.prog c.held c.memory = run env c'.prog c'.held c'.memory := by
  obtain ⟨held, memory, prog⟩ := c
  cases prog with
  | ret result => cases h
  | panicked => cases h
  | acquire l m k =>
    simp only [step] at h
    split at h
    · cases h
    · next hfree =>
      cases h
      exact if_neg hfree
  | release l m k =>
    cases h
    rfl
  | load l k =>
    cases h
    rfl
  | store l v k =>
    cases h
    rfl
  | ask q k =>
    cases h
    rfl

theorem run_of_reachable {c c' : Config S ρ} (h : Transition.Reachable (step env) c c') :
    run env c.prog c.held c.memory = run env c'.prog c'.held c'.memory :=
  h.invariant (P := fun c' => run env c.prog c.held c.memory = run env c'.prog c'.held c'.memory)
    rfl fun h hstep => h.trans (run_of_step hstep)

theorem run_of_waits {c : Config S ρ} (env : (q : S.Question) → S.Answer q)
    (h : c.WaitsOnItself) : ∃ l, run env c.prog c.held c.memory = .waits l := by
  obtain ⟨l, m, k, hprog, hconflict⟩ := h
  rw [hprog]
  exact ⟨l, if_pos hconflict⟩

theorem reachable_of_step {c c' c'' : Config S ρ} (h : step env c () = some c')
    (h' : Transition.Reachable (step env) c' c'') : Transition.Reachable (step env) c c'' := by
  obtain ⟨as, hrun⟩ := h'
  exact ⟨_, (Transition.Run.single h).append hrun⟩

theorem waits_of_run {p : Prog S ρ} {held : Held S} {memory : Memory S} {l : S.Lock}
    (h : run env p held memory = .waits l) :
    ∃ c, Transition.Reachable (step env) ⟨held, memory, p⟩ c ∧ c.WaitsOnItself := by
  induction p generalizing held memory with
  | ret result => cases h
  | panicked => cases h
  | acquire l' m k ih =>
    by_cases hconflict : conflict held l' m = true
    · exact ⟨_, ⟨[], .nil⟩, l', m, k, rfl, hconflict⟩
    · obtain ⟨c, hreach, hwaits⟩ := ih ((if_neg hconflict).symm.trans h)
      exact ⟨c, reachable_of_step (if_neg hconflict) hreach, hwaits⟩
  | release l' m k ih =>
    obtain ⟨c, hreach, hwaits⟩ := ih h
    exact ⟨c, reachable_of_step rfl hreach, hwaits⟩
  | load l' k ih =>
    obtain ⟨c, hreach, hwaits⟩ := ih _ h
    exact ⟨c, reachable_of_step rfl hreach, hwaits⟩
  | store l' v k ih =>
    obtain ⟨c, hreach, hwaits⟩ := ih h
    exact ⟨c, reachable_of_step rfl hreach, hwaits⟩
  | ask q k ih =>
    obtain ⟨c, hreach, hwaits⟩ := ih _ h
    exact ⟨c, reachable_of_step rfl hreach, hwaits⟩

/-- What a task goes through, and how its program ends. -/
theorem waits_iff {p : Prog S ρ} {memory : Memory S} :
    (∃ c, Transition.Reachable (step env) (.start p memory) c ∧ c.WaitsOnItself) ↔
      ∃ l, run env p [] memory = .waits l := by
  constructor
  · rintro ⟨c, hreach, hwaits⟩
    obtain ⟨l, hrun⟩ := run_of_waits env hwaits
    exact ⟨l, (run_of_reachable hreach).trans hrun⟩
  · rintro ⟨l, hrun⟩
    exact waits_of_run hrun

end LockProg
