import Mathlib.Data.List.Perm.Basic
import SocketMessaging.Server.Interleaving

/-! Threads with a note beside each task. What an earlier lookup has found cannot
always be read off what is left of a program; the notes keep it, and no program
reads them. Handler loops and tasks together are the parties. -/
namespace SocketMessaging
open Prog Transition CommandHandler

/-- How the notes are kept. That of a handler loop never changes. -/
structure Notes (γ : Type) where
  loop : ConnId → γ
  start : Task → γ
  turn : Env → World → {β : Type} → Action β → γ → γ

structure Noted (γ : Type) where
  world : World
  workers : List Worker
  tasks : List (Handler × γ)

namespace Noted
variable {γ : Type} {notes : Notes γ} {s after : Noted γ}

def threads (s : Noted γ) : Threads := ⟨s.world, s.workers, s.tasks.map Prod.fst⟩

def note (notes : Notes γ) (s : Noted γ) (label : Env × Move) : List (Handler × γ) :=
  match label.2 with
  | .start task => s.tasks ++ [(task.program, notes.start task)]
  | .advanceTask k =>
    match s.tasks[k]? with
    | some (.act action next, note) =>
      s.tasks.set k (next (exec label.1 action s.world).1, notes.turn label.1 s.world action note)
    | some (.done (), _) => s.tasks.eraseIdx k
    | none => s.tasks
  | _ => s.tasks

/-- The threads move, and their notes are kept. -/
def step (notes : Notes γ) (s : Noted γ) (label : Env × Move) : Option (Noted γ) :=
  (Threads.step s.threads label).map fun after => ⟨after.world, after.workers, s.note notes label⟩

/-- The server just started, with the given content of the banlist file. -/
def initial (γ : Type) (banlist : Option Str) : Noted γ where
  world := (System.initial banlist).world
  workers := []
  tasks := []

/-- All programs that are running, each with its note. -/
def parties (notes : Notes γ) (s : Noted γ) : List (Handler × γ) :=
  s.workers.mapIdx (fun i worker => (worker.rest, notes.loop i)) ++ s.tasks

theorem loop_mem_parties {i : ConnId} {worker : Worker} (present : s.workers[i]? = some worker) :
    (worker.rest, notes.loop i) ∈ s.parties notes := by
  refine List.mem_append_left _ (List.mem_of_getElem? (i := i) ?_)
  rw [List.getElem?_mapIdx, present, Option.map_some]

theorem task_mem_parties {k : Nat} {party : Handler × γ} (present : s.tasks[k]? = some party) :
    party ∈ s.parties notes :=
  List.mem_append_right _ (List.mem_of_getElem? present)

theorem advanced_of_task {k : Nat} {program : Handler} {note : γ}
    (present : s.tasks[k]? = some (program, note)) : s.threads.advanced (.advanceTask k) = program := by
  refine Threads.advanced_of_task ?_
  simp only [threads, List.getElem?_map, present, Option.map_some]

/-- Replacing an item is the same as taking it out and adding the new one. -/
theorem perm_of_getElem? {α : Type*} {items : List α} {k : Nat} {old : α}
    (present : items[k]? = some old) :
    items.Perm (old :: items.eraseIdx k) ∧ ∀ new, (items.set k new).Perm (new :: items.eraseIdx k) := by
  obtain ⟨inside, rfl⟩ := List.getElem?_eq_some_iff.mp present
  exact ⟨(List.getElem_cons_eraseIdx_perm inside).symm, List.set_perm_cons_eraseIdx inside⟩

/-- A handler loop moves on while all other parties stay where they are. -/
theorem parties_setActivity {i : ConnId} {worker : Worker} (present : s.workers[i]? = some worker) :
    ∃ others, (s.parties notes).Perm ((worker.rest, notes.loop i) :: others) ∧
      ∀ (w : World) (activity : Activity), ({ s with
        world := w
        workers := (s.threads.setActivity i activity).workers }.parties notes).Perm
          ((Worker.rest ⟨worker.socket, activity⟩, notes.loop i) :: others) := by
  let loops := s.workers.mapIdx fun i worker => (worker.rest, notes.loop i)
  have listed : loops[i]? = some (worker.rest, notes.loop i) := by
    rw [List.getElem?_mapIdx, present, Option.map_some]
  obtain ⟨before, replaced⟩ := perm_of_getElem? listed
  refine ⟨loops.eraseIdx i ++ s.tasks, before.append_right s.tasks, fun w activity => ?_⟩
  have moved : ((s.threads.setActivity i activity).workers.mapIdx fun i worker =>
      (worker.rest, notes.loop i)) = loops.set i (Worker.rest ⟨worker.socket, activity⟩, notes.loop i) := by
    apply List.ext_getElem?
    intro j
    simp only [Threads.setActivity, threads, List.getElem?_mapIdx, List.getElem?_modify, loops,
      List.getElem?_set, List.length_mapIdx]
    by_cases same : i = j
    · subst same
      obtain ⟨inside, rfl⟩ := List.getElem?_eq_some_iff.mp present
      simp [inside]
    · simp [same]
  simp only [parties, moved]
  exact (replaced _).append_right s.tasks

/-- The threads forget the notes. -/
theorem threads_step {label : Env × Move} (stepped : step notes s label = some after) :
    Threads.step s.threads label = some after.threads := by
  obtain ⟨threads, moved, rfl⟩ := Option.map_eq_some_iff.mp stepped
  rw [moved]
  obtain ⟨env, move⟩ := label
  obtain ⟨_, moved⟩ := Threads.step_cases moved
  have tasks : ∀ k : Nat, s.threads.tasks[k]? = s.tasks[k]?.map Prod.fst := fun k =>
    List.getElem?_map
  cases moved with
  | accept | receive | receiveFailure | perform | finish => rfl
  | start => simp [Noted.threads, note]
  | @performTask k β action next present =>
    rw [tasks] at present
    obtain ⟨⟨program, note⟩, found, same⟩ := Option.map_eq_some_iff.mp present
    dsimp only at same
    subst same
    simp only [Noted.threads, Noted.note, found, List.map_set]
  | @finishTask k present =>
    rw [tasks] at present
    obtain ⟨⟨program, note⟩, found, same⟩ := Option.map_eq_some_iff.mp present
    dsimp only at same
    subst same
    simp only [Noted.threads, Noted.note, found, List.eraseIdx_map]

theorem threads_run {ok : Noted γ → Env × Move → Prop} {labels : List (Env × Move)}
    (run : Run (step notes) ok s labels after) :
    Run Threads.step Free s.threads labels after.threads := by
  induction run with
  | refl => exact .refl _
  | next _ stepped _ ih => exact .next trivial (threads_step stepped) ih

theorem workers_length {env : Env} {move : Move} (stepped : step notes s (env, move) = some after)
    (other : ∀ socket, move ≠ .accept socket) : after.workers.length = s.workers.length := by
  obtain ⟨_, moved⟩ := Threads.step_cases (threads_step stepped)
  generalize threads : after.threads = later at moved
  have same : after.workers = later.workers := congrArg Threads.workers threads
  cases moved with
  | accept => exact absurd rfl (other _)
  | receive | receiveFailure | perform | finish =>
    exact (congrArg List.length same).trans (List.length_modify _ _ _)
  | start | performTask | finishTask => exact congrArg List.length same

/-- What an enabled move does to the world and to the parties. -/
inductive Turned (notes : Notes γ) (env : Env) (s : Noted γ) : Move → Noted γ → Prop where
  | accept {socket : Fd} {after : Noted γ} : 0 ≤ socket → s.world.os.user socket = none →
      after.world = s.world.accept socket s.workers.length →
      after.workers = s.workers ++ [⟨socket, .receiving⟩] →
      (after.parties notes).Perm ((.done (), notes.loop s.workers.length) :: s.parties notes) →
      Turned notes env s (.accept socket) after
  | receive {i : ConnId} {socket : Fd} {raw : Str} {after : Noted γ} {others : List (Handler × γ)} :
      s.workers[i]? = some ⟨socket, .receiving⟩ → after.world = s.world →
      (s.parties notes).Perm ((.done (), notes.loop i) :: others) →
      (after.parties notes).Perm ((handleMessage raw socket, notes.loop i) :: others) →
      Turned notes env s (.receive i raw) after
  | receiveFailure {i : ConnId} {socket : Fd} {after : Noted γ} {others : List (Handler × γ)} :
      s.workers[i]? = some ⟨socket, .receiving⟩ → after.world = s.world →
      (s.parties notes).Perm ((.done (), notes.loop i) :: others) →
      (after.parties notes).Perm ((handleReceiveFailure socket, notes.loop i) :: others) →
      Turned notes env s (.receiveFailure i) after
  | start {task : Task} {after : Noted γ} : after.world = s.world →
      (after.parties notes).Perm ((task.program, notes.start task) :: s.parties notes) →
      Turned notes env s (.start task) after
  | perform {i : ConnId} {socket : Fd} {last : Bool} {β : Type} {action : Action β}
      {next : β → Handler} {after : Noted γ} {others : List (Handler × γ)} :
      s.workers[i]? = some ⟨socket, .running last (.act action next)⟩ →
      after.world = (exec env action s.world).2 →
      (s.parties notes).Perm ((.act action next, notes.loop i) :: others) →
      (after.parties notes).Perm ((next (exec env action s.world).1, notes.loop i) :: others) →
      Turned notes env s (.advance i) after
  | performTask {k : Nat} {β : Type} {action : Action β} {next : β → Handler} {note : γ}
      {after : Noted γ} {others : List (Handler × γ)} : s.tasks[k]? = some (.act action next, note) →
      after.world = (exec env action s.world).2 →
      (s.parties notes).Perm ((.act action next, note) :: others) →
      (after.parties notes).Perm
        ((next (exec env action s.world).1, notes.turn env s.world action note) :: others) →
      Turned notes env s (.advanceTask k) after
  | finish {i : ConnId} {after : Noted γ} : after.world = s.world →
      (s.parties notes).Perm (after.parties notes) → Turned notes env s (.advance i) after
  | finishTask {k : Nat} {note : γ} {after : Noted γ} : after.world = s.world →
      (s.parties notes).Perm ((.done (), note) :: after.parties notes) →
      Turned notes env s (.advanceTask k) after

theorem step_turned {env : Env} {move : Move} (stepped : step notes s (env, move) = some after) :
    s.world.server.status = .running ∧ Turned notes env s move after := by
  obtain ⟨threads, moved, rfl⟩ := Option.map_eq_some_iff.mp stepped
  obtain ⟨running, moved⟩ := Threads.step_cases moved
  refine ⟨running, ?_⟩
  have tasks : ∀ k : Nat, s.threads.tasks[k]? = s.tasks[k]?.map Prod.fst := fun k =>
    List.getElem?_map
  cases moved with
  | accept nonneg free =>
    refine .accept nonneg free rfl rfl ?_
    simp only [parties, Noted.threads, List.mapIdx_concat, List.append_assoc, List.cons_append,
      List.nil_append]
    exact List.perm_middle
  | receive reads =>
    obtain ⟨others, before, moved⟩ := s.parties_setActivity reads
    exact .receive reads rfl before (moved s.world _)
  | receiveFailure reads =>
    obtain ⟨others, before, moved⟩ := s.parties_setActivity reads
    exact .receiveFailure reads rfl before (moved s.world _)
  | perform present =>
    obtain ⟨others, before, moved⟩ := s.parties_setActivity present
    exact .perform present rfl before (moved _ _)
  | @finish i socket last present =>
    obtain ⟨others, before, moved⟩ := s.parties_setActivity present
    have idle : Worker.rest ⟨socket, if last then .returned else .receiving⟩ = .done () := by
      cases last <;> rfl
    have again := moved s.world (if last then .returned else .receiving)
    dsimp only at again
    rw [idle] at again
    exact .finish rfl (before.trans again.symm)
  | start =>
    refine .start rfl ?_
    simp only [parties, note, ← List.append_assoc]
    exact List.perm_append_singleton _ _
  | @performTask k β action next present =>
    rw [tasks] at present
    obtain ⟨⟨program, note⟩, found, same⟩ := Option.map_eq_some_iff.mp present
    dsimp only at same
    subst same
    let loops := s.workers.mapIdx fun i worker => (worker.rest, notes.loop i)
    obtain ⟨before, replaced⟩ := perm_of_getElem? found
    have taken : (s.parties notes).Perm ((.act action next, note) :: (loops ++ s.tasks.eraseIdx k)) :=
      (before.append_left loops).trans List.perm_middle
    refine .performTask found rfl taken ?_
    simp only [parties, Noted.note, found]
    exact ((replaced _).append_left loops).trans List.perm_middle
  | @finishTask k present =>
    rw [tasks] at present
    obtain ⟨⟨program, note⟩, found, same⟩ := Option.map_eq_some_iff.mp present
    dsimp only at same
    subst same
    let loops := s.workers.mapIdx fun i worker => (worker.rest, notes.loop i)
    have taken : (s.parties notes).Perm ((.done (), note) :: (loops ++ s.tasks.eraseIdx k)) :=
      ((perm_of_getElem? found).1.append_left loops).trans List.perm_middle
    have left : Noted.note notes s (env, .advanceTask k) = s.tasks.eraseIdx k := by
      simp only [Noted.note, found]
    rw [← left] at taken
    exact .finishTask rfl taken

end Noted
end SocketMessaging
