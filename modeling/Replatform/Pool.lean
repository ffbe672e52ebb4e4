/-! # Pools of workers

A pool begins tasks in their order as its workers get free; which of the tasks at work ends next is
not up to the pool.  The results are collected as the tasks end and are taken in the order of the
tasks.
-/
namespace Replatform

/-- Some workers, and which of the tasks at work ends next, given the numbers of these tasks. -/
structure Pool where
  workers : Nat
  turn : List Nat → Nat

namespace Pool

variable {τ α : Type}

/-- Numbered tasks that wait, in order, and those at work, and the results of the others. -/
structure State (τ α : Type) where
  waiting : List (τ × Nat)
  working : List (τ × Nat)
  ended : List (α × Nat)

/-- The number of tasks that may be at work at a time: one at least. -/
def size (pool : Pool) : Nat := max 1 pool.workers

/-- Each free worker begins the next task. -/
def begin (pool : Pool) (s : State τ α) : State τ α :=
  let free := pool.size - s.working.length
  { s with waiting := s.waiting.drop free, working := s.working ++ s.waiting.take free }

/-- One of the tasks at work ends with its result. -/
def finish (pool : Pool) (task : τ → α) (s : State τ α) : State τ α :=
  let i := pool.turn (s.working.map Prod.snd) % s.working.length
  match s.working[i]? with
  | none => s
  | some (t, n) => { s with working := s.working.eraseIdx i, ended := s.ended ++ [(task t, n)] }

/-- The workers go on until a task ends. -/
def step (pool : Pool) (task : τ → α) (s : State τ α) : State τ α := pool.finish task (pool.begin s)

/-- The state once so many tasks have ended. -/
def after (pool : Pool) (task : τ → α) (ts : List τ) : Nat → State τ α
  | 0 => ⟨ts.zipIdx, [], []⟩
  | n + 1 => pool.step task (pool.after task ts n)

/-- The results of all tasks, in the order of the tasks. -/
def results (pool : Pool) (task : τ → α) (ts : List τ) : List α :=
  let ended := (pool.after task ts ts.length).ended
  ts.zipIdx.filterMap fun (_, n) => (ended.find? (·.2 = n)).map Prod.fst

end Pool
end Replatform
