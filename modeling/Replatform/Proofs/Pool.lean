import Mathlib.Data.List.Perm.Basic
import Replatform.Pool

/-! # What a pool gives

Each step of a pool ends one task, and no task is lost or done twice: the results that there are and
those of the tasks still to be done are always those of all tasks.  So the results are those of the
tasks one by one, whatever the number of workers and whichever task ends next.
-/
namespace Replatform
namespace Pool

variable {τ α : Type}

/-- The results that there are, and those that the other tasks will have. -/
def State.outcomes (task : τ → α) (s : State τ α) : List (α × Nat) :=
  s.ended ++ (s.working ++ s.waiting).map fun t => (task t.1, t.2)

/-- The tasks that have not ended. -/
def State.unfinished (s : State τ α) : Nat := s.working.length + s.waiting.length

variable (pool : Pool) (task : τ → α)

theorem outcomes_begin (s : State τ α) : (pool.begin s).outcomes task = s.outcomes task := by
  simp [begin, State.outcomes]

theorem unfinished_begin (s : State τ α) : (pool.begin s).unfinished = s.unfinished := by
  simp only [begin, State.unfinished, List.length_append, List.length_take, List.length_drop]
  omega

/-- Never more tasks are at work than there are workers. -/
theorem length_working_begin {s : State τ α} (h : s.working.length ≤ pool.size) :
    (pool.begin s).working.length ≤ pool.size := by
  simp only [begin, List.length_append, List.length_take]
  omega

/-- If a task is left, one is at work. -/
theorem length_working_begin_pos {s : State τ α} (h : 0 < s.unfinished) :
    0 < (pool.begin s).working.length := by
  have hsize : 0 < pool.size := Nat.lt_of_lt_of_le Nat.one_pos (Nat.le_max_left ..)
  unfold State.unfinished at h
  simp only [begin, List.length_append, List.length_take]
  omega

/-- Of the tasks at work one ends, and nothing else changes. -/
theorem exists_finish {s : State τ α} (h : 0 < s.working.length) :
    ∃ i t, s.working[i]? = some t ∧
      pool.finish task s =
        { s with working := s.working.eraseIdx i, ended := s.ended ++ [(task t.1, t.2)] } := by
  have hi := Nat.mod_lt (pool.turn (s.working.map Prod.snd)) h
  refine ⟨_, _, List.getElem?_eq_getElem hi, ?_⟩
  rw [finish, List.getElem?_eq_getElem hi]

theorem outcomes_finish {s : State τ α} (h : 0 < s.working.length) :
    ((pool.finish task s).outcomes task).Perm (s.outcomes task) := by
  obtain ⟨i, t, hi, hfinish⟩ := pool.exists_finish task h
  obtain ⟨hlt, rfl⟩ := List.getElem?_eq_some_iff.mp hi
  have hback := List.getElem_cons_eraseIdx_perm hlt
  rw [hfinish, State.outcomes, State.outcomes, List.append_assoc]
  exact ((hback.append_right s.waiting).map fun t => (task t.1, t.2)).append_left s.ended

theorem unfinished_finish {s : State τ α} (h : 0 < s.working.length) :
    (pool.finish task s).unfinished + 1 = s.unfinished := by
  obtain ⟨i, t, hi, hfinish⟩ := pool.exists_finish task h
  obtain ⟨hlt, -⟩ := List.getElem?_eq_some_iff.mp hi
  rw [hfinish, State.unfinished, State.unfinished]
  dsimp only
  rw [List.length_eraseIdx_of_lt hlt]
  omega

theorem length_working_finish (s : State τ α) :
    (pool.finish task s).working.length ≤ s.working.length := by
  unfold finish
  dsimp only
  split
  · exact Nat.le_refl _
  · exact List.length_eraseIdx_le ..

/-! ## Runs -/

/-- At no time more tasks are at work than there are workers. -/
theorem length_working_after (ts : List τ) (n : Nat) :
    (pool.after task ts n).working.length ≤ pool.size := by
  induction n with
  | zero => exact Nat.zero_le _
  | succ n ih =>
    exact Nat.le_trans (pool.length_working_finish task _) (pool.length_working_begin ih)

/-- With each task that ends one less is left, and the results are those of all tasks. -/
theorem after_spec (ts : List τ) {n : Nat} (h : n ≤ ts.length) :
    (pool.after task ts n).unfinished + n = ts.length ∧
      ((pool.after task ts n).outcomes task).Perm (ts.zipIdx.map fun t => (task t.1, t.2)) := by
  induction n with
  | zero =>
    refine ⟨?_, ?_⟩
    · simp [after, State.unfinished]
    · simp [after, State.outcomes]
  | succ n ih =>
    obtain ⟨hunfinished, houtcomes⟩ := ih (Nat.le_of_succ_le h)
    have hworking : 0 < (pool.begin (pool.after task ts n)).working.length :=
      pool.length_working_begin_pos (by omega)
    have hstep := pool.unfinished_finish task hworking
    rw [unfinished_begin] at hstep
    refine ⟨?_, ?_⟩
    · rw [after, step]
      omega
    · refine (pool.outcomes_finish task hworking).trans ?_
      rw [outcomes_begin]
      exact houtcomes

/-- When all tasks have ended there is one result with each number. -/
theorem find?_ended {ts : List τ} {t : τ} {n : Nat} (h : (t, n) ∈ ts.zipIdx) :
    ((pool.after task ts ts.length).ended.find? (·.2 = n)).map Prod.fst = some (task t) := by
  obtain ⟨hunfinished, houtcomes⟩ := pool.after_spec task ts (Nat.le_refl _)
  generalize pool.after task ts ts.length = s at hunfinished houtcomes
  have hnone : s.working ++ s.waiting = [] := by
    rw [← List.length_eq_zero_iff, List.length_append]
    unfold State.unfinished at hunfinished
    omega
  rw [State.outcomes, hnone, List.map_nil, List.append_nil] at houtcomes
  have hmem : (task t, n) ∈ s.ended :=
    houtcomes.mem_iff.mpr (List.mem_map.mpr ⟨(t, n), h, rfl⟩)
  cases hfind : s.ended.find? (·.2 = n) with
  | none => exact absurd (List.find?_eq_none.mp hfind _ hmem) (by simp)
  | some found =>
    -- the number says of which task this is the result
    have hnumber : found.2 = n := by simpa using List.find?_some hfind
    obtain ⟨t', ht', rfl⟩ := List.mem_map.mp (houtcomes.mem_iff.mp (List.mem_of_find?_eq_some hfind))
    have hfirst := List.mem_zipIdx_iff_getElem?.mp h
    have hsecond := List.mem_zipIdx_iff_getElem?.mp ht'
    rw [show t'.2 = n from hnumber] at hsecond
    rw [show t'.1 = t from Option.some.inj (hsecond.symm.trans hfirst)]
    rfl

/-- **A pool gives the results of its tasks in their order**, whatever the number of workers and
whichever task ends next. -/
theorem results_eq_map (ts : List τ) : pool.results task ts = ts.map task := by
  have hresult : ∀ t ∈ ts.zipIdx,
      (((pool.after task ts ts.length).ended.find? (·.2 = t.2)).map Prod.fst) =
        some (task t.1) := fun t ht => pool.find?_ended task ht
  unfold results
  dsimp only
  rw [List.filterMap_congr hresult]
  calc ts.zipIdx.filterMap (fun t => some (task t.1))
      = ts.zipIdx.map (fun t => task t.1) := congrFun List.filterMap_eq_map' _
    _ = (ts.zipIdx.map Prod.fst).map task := (List.map_map ..).symm
    _ = ts.map task := by rw [List.zipIdx_map_fst]

/-- Each task with its result. -/
theorem zip_results (ts : List τ) :
    ts.zip (pool.results task ts) = ts.map fun t => (t, task t) := by
  rw [results_eq_map]
  induction ts with
  | nil => rfl
  | cons t ts ih => rw [List.map_cons, List.map_cons, List.zip_cons_cons, ih]

end Pool
end Replatform
