import Intake.Proofs.Session.Step

/-!
The tasks of a session that are not done: those that have not begun, those that wait
for the lock, and the one whose flush has it. A move of the task with the lock
either ends it or leaves all of them as they are.
-/
namespace Intake.Session

/-- The tasks that are not done. -/
def tasks (s : Session) : List Task := s.spawned ++ s.queue ++ (s.flush?.map (·.task)).toList

/-- How many records tasks hold that are not done, or have stored and not counted off. -/
def storing (s : Session) : Nat := (s.tasks.flatMap Task.records).length + s.settling

theorem tasks_queue (s : Session) (t : Task) {u : Session} (spawned : u.spawned = s.spawned)
    (queue : u.queue = s.queue ++ [t]) (flush? : u.flush? = s.flush?) : u.tasks.Perm (t :: s.tasks) := by
  simp only [tasks,spawned,queue,flush?,List.append_assoc,List.singleton_append]
  rw [← List.append_assoc,← List.append_assoc]
  exact List.perm_middle

theorem tasks_start {s : Session} {i : Nat} {t : Task} (at_i : s.spawned[i]? = some t) :
    ({ s with spawned := s.spawned.eraseIdx i, queue := s.queue ++ [t] } : Session).tasks.Perm s.tasks := by
  obtain ⟨before,after,whole,erased,-⟩ := split_at at_i
  simp only [tasks]
  rw [erased,whole]
  grind

/-- A task is done and gives back the lock. -/
structure Ends (s : Session) (t : Task) (u : Session) : Prop where
  tasks : s.tasks.Perm (t :: u.tasks)
  scheduler : u.scheduler = t.after s.scheduler
  settling : u.settling = s.settling + t.records.length
  flush? : u.flush? = none

/-- A task waits for the answer to a call, with the lock. -/
structure Lasts (s u : Session) : Prop where
  tasks : s.tasks.Perm u.tasks
  scheduler : u.scheduler = s.scheduler
  settling : u.settling = s.settling
  flush? : u.flush? ≠ none

theorem performs_ends_or_lasts {s u : Session} {t : Task} {rest : List Task} (free : s.flush? = none)
    (next : s.queue = t :: rest) (does : Performs { s with queue := rest } t u) : Ends s t u ∨ Lasts s u := by
  have before : s.tasks = s.spawned ++ t :: rest := by simp [tasks,free,next]
  cases does with
  | keep | idle | refuse =>
    left
    refine ⟨?_,by simp [fail],by simp [fail],by simp⟩
    rw [before]
    simp [tasks,fail]
  | begin =>
    right
    refine ⟨?_,rfl,rfl,by simp⟩
    rw [before]
    simpa [tasks] using (List.perm_append_singleton t rest).symm.append_left s.spawned

theorem resume_ends_or_lasts {s : Session} {f : Flush} (writes : s.flush? = some f)
    (result : Except Failure Unit) :
    Ends s f.task (s.resume f result) ∨ Lasts s (s.resume f result) := by
  have before : s.tasks = s.spawned ++ s.queue ++ [f.task] := by simp [tasks,writes]
  cases result with
  | error failure =>
    left
    refine ⟨?_,by simp [resume,fail],by simp [resume,fail],by simp [resume]⟩
    rw [before]
    simpa [tasks,resume,fail] using List.perm_append_singleton f.task (s.spawned ++ s.queue)
  | ok _ =>
    cases left : f.left with
    | nil =>
      left
      refine ⟨?_,by simp [resume,left,commit],by simp [resume,left,commit],by simp [resume,left]⟩
      rw [before]
      simpa [tasks,resume,left,commit] using List.perm_append_singleton f.task (s.spawned ++ s.queue)
    | cons call rest =>
      right
      refine ⟨?_,by simp [resume,left],by simp [resume,left],by simp [resume,left]⟩
      rw [before]
      simp [tasks,resume,left]

/-- With the lock, a task keeps its record until the record is counted off. -/
theorem storing_of_lock {s u : Session} {t : Task} (lock : Ends s t u ∨ Lasts s u) : u.storing = s.storing := by
  rcases lock with ends | lasts
  · have same := (ends.tasks.flatMap_right Task.records).length_eq
    simp only [List.flatMap_cons,List.length_append] at same
    simp only [storing,ends.settling]
    omega
  · have same := (lasts.tasks.flatMap_right Task.records).length_eq
    simp only [storing,lasts.settling]
    omega

end Intake.Session
