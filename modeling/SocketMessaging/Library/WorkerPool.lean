import Mathlib.Data.List.ReduceOption
import Mathlib.Data.List.Nodup
import Mathlib.Logic.Relation

/-! A fixed number of workers that share one queue of tasks. An idle worker takes
the oldest task and stays with it until the task is finished. Everything is
running as soon as no idle worker can take a task, exactly when there are at
least as many workers as unfinished tasks. -/
universe u

/-- An idle worker is `none`. The head of `tasks` is the oldest one. -/
structure WorkerPool (T : Type u) where
  tasks : List T
  workers : List (Option T)

namespace WorkerPool
open Relation
variable {T : Type u} {task other : T} {k : Nat} {p q : WorkerPool T}

def start (size : Nat) : WorkerPool T := ⟨[], List.replicate size none⟩

def enqueue (task : T) (p : WorkerPool T) : WorkerPool T := { p with tasks := p.tasks ++ [task] }

/-- Worker `k` takes the oldest task, if it is idle and there is one. -/
def take (k : Nat) (p : WorkerPool T) : Option (WorkerPool T) :=
  match p.workers[k]?, p.tasks with
  | some none, task :: tasks => some ⟨tasks, p.workers.set k (some task)⟩
  | _, _ => none

/-- The task is finished, and the worker that ran it is idle again. -/
def finish [DecidableEq T] (task : T) (p : WorkerPool T) : WorkerPool T :=
  { p with workers := p.workers.map fun running => running.filter fun other => other ≠ task }

/-- The tasks that workers run. -/
def running (p : WorkerPool T) : List T := p.workers.reduceOption

def unfinished (p : WorkerPool T) : List T := p.running ++ p.tasks

/-- No idle worker has a task to take. -/
def Settled (p : WorkerPool T) : Prop := none ∈ p.workers → p.tasks = []

/-- Some worker takes a task. -/
def Takes (p q : WorkerPool T) : Prop := ∃ k, p.take k = some q

/-- A task is enqueued, taken by a worker, or finished. -/
inductive Step [DecidableEq T] (p : WorkerPool T) : WorkerPool T → Prop where
  | enqueue (task : T) : Step p (p.enqueue task)
  | take {q : WorkerPool T} : p.Takes q → Step p q
  | finish {task : T} : task ∈ p.running → Step p (p.finish task)

theorem take_eq_some : p.take k = some q ↔ ∃ before after task tasks, before.length = k ∧
    p = ⟨task :: tasks, before ++ none :: after⟩ ∧ q = ⟨tasks, before ++ some task :: after⟩ := by
  obtain ⟨tasks, workers⟩ := p
  constructor
  · intro taken
    unfold take at taken
    split at taken
    · rename_i task tasks idle waiting
      obtain ⟨inside, idle⟩ := List.getElem?_eq_some_iff.mp idle
      cases taken
      obtain rfl := waiting
      refine ⟨workers.take k, workers.drop (k + 1), task, tasks, ?_, ?_, ?_⟩
      · rw [List.length_take]
        exact Nat.min_eq_left (Nat.le_of_lt inside)
      · rw [← idle, List.getElem_cons_drop, List.take_append_drop]
      · rw [List.set_eq_take_append_cons_drop, if_pos inside]
    · cases taken
  · rintro ⟨before, after, task, rest, rfl, same, rfl⟩
    cases same
    simp [take]

theorem running_append (before after : List (Option T)) (tasks : List T) :
    running ⟨tasks, before ++ after⟩ = before.reduceOption ++ after.reduceOption :=
  List.reduceOption_append before after

/-- Taking a task finishes none and loses none. -/
theorem take_unfinished (taken : p.take k = some q) : q.unfinished.Perm p.unfinished := by
  obtain ⟨before, after, task, tasks, _, rfl, rfl⟩ := take_eq_some.mp taken
  simp only [unfinished, running_append, List.reduceOption_cons_of_some,
    List.reduceOption_cons_of_none, List.append_assoc, List.cons_append]
  apply List.Perm.append_left _
  exact List.perm_middle.symm

theorem take_workers (taken : p.take k = some q) : q.workers.length = p.workers.length := by
  obtain ⟨before, after, task, tasks, _, rfl, rfl⟩ := take_eq_some.mp taken
  simp

theorem take_suffix (taken : p.take k = some q) : q.tasks <:+ p.tasks := by
  obtain ⟨before, after, task, tasks, _, rfl, rfl⟩ := take_eq_some.mp taken
  exact List.suffix_cons task tasks

theorem unfinished_enqueue (task : T) (p : WorkerPool T) :
    (p.enqueue task).unfinished = p.unfinished ++ [task] :=
  (List.append_assoc _ _ _).symm

theorem running_finish [DecidableEq T] (task : T) (p : WorkerPool T) :
    (p.finish task).running = p.running.filter fun other => other ≠ task := by
  obtain ⟨tasks, workers⟩ := p
  simp only [running, finish]
  induction workers with
  | nil => rfl
  | cons worker workers ih =>
    cases worker with
    | none => simpa using ih
    | some other =>
      by_cases same : other = task
      · simpa [Option.filter, same] using ih
      · simpa [Option.filter, same] using ih

/-- Of distinct tasks, only the one that was running goes. -/
theorem unfinished_finish [DecidableEq T] (distinct : p.unfinished.Nodup)
    (runs : task ∈ p.running) :
    (p.finish task).unfinished = p.unfinished.filter fun other => other ≠ task := by
  have elsewhere : ∀ other ∈ p.tasks, other ≠ task := by
    rintro other waiting rfl
    exact (List.nodup_append.mp distinct).2.2 _ runs _ waiting rfl
  have kept : p.tasks.filter (fun other => other ≠ task) = p.tasks :=
    List.filter_eq_self.mpr fun other waiting => decide_eq_true (elsewhere other waiting)
  rw [unfinished, running_finish, unfinished, List.filter_append, kept]
  rfl

theorem running_le (p : WorkerPool T) : p.running.length ≤ p.workers.length :=
  List.reduceOption_length_le p.workers

/-- With enough workers nothing waits once the pool has settled. -/
theorem Settled.tasks_eq_nil (settled : p.Settled)
    (enough : p.unfinished.length ≤ p.workers.length) : p.tasks = [] := by
  by_cases idle : none ∈ p.workers
  · exact settled idle
  · have all : p.running.length = p.workers.length := by
      apply List.reduceOption_length_eq_iff.mpr
      intro worker member
      cases worker with
      | none => exact absurd member idle
      | some task => rfl
    rw [unfinished, List.length_append, all] at enough
    exact List.length_eq_zero_iff.mp (by omega)

theorem takes_kept (takes : ReflTransGen Takes p q) :
    q.unfinished.Perm p.unfinished ∧ q.workers.length = p.workers.length := by
  induction takes with
  | refl => exact ⟨.refl _, rfl⟩
  | tail _ taken ih =>
    obtain ⟨k, taken⟩ := taken
    exact ⟨(take_unfinished taken).trans ih.1, (take_workers taken).trans ih.2⟩

theorem takes_suffix (takes : ReflTransGen Takes p q) : q.tasks <:+ p.tasks := by
  induction takes with
  | refl => exact List.suffix_refl _
  | tail _ taken ih =>
    obtain ⟨k, taken⟩ := taken
    exact (take_suffix taken).trans ih

/-- With too few workers the task that came last waits until some task is finished. -/
theorem waits_of_takes (few : p.workers.length < p.unfinished.length)
    (last : p.tasks.getLast? = some task) (takes : ReflTransGen Takes p q) : task ∈ q.tasks := by
  obtain ⟨same, workers⟩ := takes_kept takes
  have waiting : q.tasks ≠ [] := by
    intro none
    have bound := q.running_le
    have count := same.length_eq
    rw [unfinished, none, List.append_nil] at count
    omega
  obtain ⟨taken, split⟩ := takes_suffix takes
  rw [← split, List.getLast?_append_of_ne_nil _ waiting] at last
  exact List.mem_of_getLast? last

/-- Idle workers take tasks until the pool has settled. -/
theorem exists_settled (p : WorkerPool T) : ∃ q, ReflTransGen Takes p q ∧ q.Settled := by
  obtain ⟨tasks, workers⟩ := p
  induction tasks generalizing workers with
  | nil => exact ⟨_, .refl, fun _ => rfl⟩
  | cons task tasks ih =>
    by_cases idle : none ∈ workers
    · obtain ⟨before, after, rfl⟩ := List.append_of_mem idle
      have taken : Takes ⟨task :: tasks, before ++ none :: after⟩
          ⟨tasks, before ++ some task :: after⟩ :=
        ⟨before.length, take_eq_some.mpr ⟨before, after, task, tasks, rfl, rfl, rfl⟩⟩
      obtain ⟨q, takes, settled⟩ := ih (before ++ some task :: after)
      exact ⟨q, .head taken takes, settled⟩
    · exact ⟨_, .refl, fun member => absurd member idle⟩

end WorkerPool
