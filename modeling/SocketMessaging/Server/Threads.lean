import SocketMessaging.Server.Registry

/-! The server at the grain of its locks. Each handler loop and each of the other
threads is a program of which one action is performed at a time, in any order.
The operations of `System` are the runs in which nobody is interrupted. -/
namespace SocketMessaging
open Prog Transition

/-- Where a handler loop stands: blocked in `receive`, within an iteration with
this much left to do, or returned. The flag says that receiving has failed, so
that the iteration is the last one. -/
inductive Activity where
  | receiving
  | running (last : Bool) (rest : Handler)
  | returned

structure Worker where
  socket : Fd
  activity : Activity

def Worker.live (worker : Worker) : Bool :=
  match worker.activity with
  | .returned => false
  | _ => true

/-- What is left of the current iteration. -/
def Worker.rest : Worker → Handler
  | ⟨_, .running _ rest⟩ => rest
  | _ => .done ()

/-! The next action of a program, seen by what it is done to. -/

def checking : Handler → Option Str
  | .act (.isUsernameTaken username) _ => some username
  | _ => none

def registering : Handler → Option Str
  | .act (.registerClient username _) _ => some username
  | _ => none

def unregistering : Handler → Option Str
  | .act (.unregisterClient username) _ => some username
  | _ => none

def closing : Handler → Option Fd
  | .act (.close socket) _ => some socket
  | _ => none

def sending : Handler → Option Str
  | .act (.send _ message) _ => some message
  | _ => none

/-- What the threads other than the handler loops do, once or again and again. -/
inductive Task where
  | dispatch
  | admin (line : Str)
  | heartbeat
  | checkTimeouts

def Task.program : Task → Handler
  | .dispatch => Dispatcher.runOnce
  | .admin line => AdminCommandHandler.commandLine line
  | .heartbeat => perform .pingClients
  | .checkTimeouts => checkClientTimeouts

/-- The worker at index `i` is the loop started for connection `i`. -/
structure Threads where
  world : World
  workers : List Worker
  tasks : List Handler

inductive Move where
  | accept (socket : Fd)
  | receive (loop : ConnId) (raw : Str)
  | receiveFailure (loop : ConnId)
  | advance (loop : ConnId)
  | start (task : Task)
  | advanceTask (index : Nat)

namespace Threads

def setActivity (i : ConnId) (activity : Activity) (s : Threads) : Threads :=
  { s with workers := s.workers.modify i fun worker => { worker with activity } }

/-- `none` means that the move is not enabled. -/
def step (s : Threads) (label : Env × Move) : Option Threads :=
  let (env, move) := label
  if s.world.server.status ≠ .running then none
  else match move with
  | .accept socket =>
    if 0 ≤ socket ∧ s.world.os.user socket = none then
      some { s with
        world := s.world.accept socket s.workers.length
        workers := s.workers ++ [⟨socket, .receiving⟩] }
    else none
  | .receive i raw =>
    match s.workers[i]? with
    | some ⟨socket, .receiving⟩ =>
      if s.world.os.user socket ≠ none ∧ NetworkStream.Admissible raw then
        some (s.setActivity i (.running false (CommandHandler.handleMessage raw socket)))
      else none
    | _ => none
  | .receiveFailure i =>
    match s.workers[i]? with
    | some ⟨socket, .receiving⟩ =>
      some (s.setActivity i (.running true (CommandHandler.handleReceiveFailure socket)))
    | _ => none
  | .advance i =>
    match s.workers[i]? with
    | some ⟨_, .running last (.act action next)⟩ =>
      let result := exec env action s.world
      some ({ s with world := result.2 }.setActivity i (.running last (next result.1)))
    | some ⟨_, .running last (.done ())⟩ =>
      some (s.setActivity i (if last then .returned else .receiving))
    | _ => none
  | .start task => some { s with tasks := s.tasks ++ [task.program] }
  | .advanceTask k =>
    match s.tasks[k]? with
    | some (.act action next) =>
      let result := exec env action s.world
      some { s with world := result.2, tasks := s.tasks.set k (next result.1) }
    | some (.done ()) => some { s with tasks := s.tasks.eraseIdx k }
    | none => none

/-- The program of which a move performs the next action. -/
def advanced (s : Threads) : Move → Handler
  | .advance i => (s.workers[i]?.map Worker.rest).getD (.done ())
  | .advanceTask k => s.tasks[k]?.getD (.done ())
  | _ => .done ()

/-- What an enabled move does. -/
inductive Stepped (env : Env) (s : Threads) : Move → Threads → Prop where
  | accept {socket : Fd} : 0 ≤ socket → s.world.os.user socket = none →
      Stepped env s (.accept socket)
        { s with
          world := s.world.accept socket s.workers.length
          workers := s.workers ++ [⟨socket, .receiving⟩] }
  | receive {i : ConnId} {raw : Str} {socket : Fd} {conn : ConnId} :
      s.workers[i]? = some ⟨socket, .receiving⟩ → s.world.os.user socket = some conn →
      NetworkStream.Admissible raw → Stepped env s (.receive i raw)
        (s.setActivity i (.running false (CommandHandler.handleMessage raw socket)))
  | receiveFailure {i : ConnId} {socket : Fd} : s.workers[i]? = some ⟨socket, .receiving⟩ →
      Stepped env s (.receiveFailure i)
        (s.setActivity i (.running true (CommandHandler.handleReceiveFailure socket)))
  | perform {i : ConnId} {socket : Fd} {last : Bool} {β : Type} {action : Action β}
      {next : β → Handler} : s.workers[i]? = some ⟨socket, .running last (.act action next)⟩ →
      Stepped env s (.advance i) ({ s with world := (exec env action s.world).2 }.setActivity i
        (.running last (next (exec env action s.world).1)))
  | finish {i : ConnId} {socket : Fd} {last : Bool} :
      s.workers[i]? = some ⟨socket, .running last (.done ())⟩ →
      Stepped env s (.advance i) (s.setActivity i (if last then .returned else .receiving))
  | start {task : Task} : Stepped env s (.start task) { s with tasks := s.tasks ++ [task.program] }
  | performTask {k : Nat} {β : Type} {action : Action β} {next : β → Handler} :
      s.tasks[k]? = some (.act action next) → Stepped env s (.advanceTask k)
        { s with
          world := (exec env action s.world).2
          tasks := s.tasks.set k (next (exec env action s.world).1) }
  | finishTask {k : Nat} : s.tasks[k]? = some (.done ()) →
      Stepped env s (.advanceTask k) { s with tasks := s.tasks.eraseIdx k }

theorem step_cases {s after : Threads} {env : Env} {move : Move}
    (stepped : step s (env, move) = some after) :
    s.world.server.status = .running ∧ Stepped env s move after := by
  by_cases running : s.world.server.status = .running
  case neg => simp [step, running] at stepped
  refine ⟨running, ?_⟩
  simp only [step, ne_eq, running, not_true_eq_false, if_false] at stepped
  cases move with
  | accept socket =>
    simp only [Option.ite_none_right_eq_some, Option.some.injEq] at stepped
    obtain ⟨⟨nonneg, free⟩, rfl⟩ := stepped
    exact .accept nonneg free
  | receive i raw =>
    dsimp only at stepped
    split at stepped
    · rename_i socket reads
      obtain ⟨⟨used, admissible⟩, same⟩ := Option.ite_none_right_eq_some.mp stepped
      obtain ⟨conn, used⟩ := Option.ne_none_iff_exists'.mp used
      cases same
      exact .receive reads used admissible
    · cases stepped
  | receiveFailure i =>
    dsimp only at stepped
    split at stepped
    · rename_i socket reads
      cases stepped
      exact .receiveFailure reads
    · cases stepped
  | advance i =>
    dsimp only at stepped
    split at stepped
    · rename_i at_
      cases stepped
      exact .perform at_
    · rename_i at_
      cases stepped
      exact .finish at_
    · cases stepped
  | start task => exact Option.some.inj stepped ▸ .start
  | advanceTask k =>
    dsimp only at stepped
    split at stepped
    · rename_i at_
      cases stepped
      exact .performTask at_
    · rename_i at_
      cases stepped
      exact .finishTask at_
    · cases stepped

/-- The server just started, with the given content of the banlist file. -/
def initial (banlist : Option Str) : Threads where
  world := (System.initial banlist).world
  workers := []
  tasks := []

/-- These moves, each under `Env.plain`. -/
def plainMoves (moves : List Move) : List (Env × Move) := moves.map fun move => (.plain, move)

/-- The state in which every handler loop waits for its next message. -/
def ofSystem (s : System) : Threads where
  world := s.world
  workers := s.loops.map fun loop => ⟨loop.socket, if loop.live then .receiving else .returned⟩
  tasks := []

end Threads

/-- The program is about to stop the server. -/
def stopping : Handler → Bool
  | .act .stop _ => true
  | _ => false

/-- Only `stop` ends the server. -/
theorem exec_status (env : Env) {β : Type} {action : Action β} (next : β → Handler)
    (goesOn : stopping (.act action next) = false) (w : World) :
    (exec env action w).2.server.status = w.server.status := by
  cases action with
  | stop => cases goesOn
  | send number message => exact congrArg Server.status (w.server_send env number message)
  | pingClients =>
    refine World.pingClients_keeps (I := fun v => v.server.status = w.server.status) rfl ?_
    intro entry _ v same
    exact (congrArg Server.status (v.server_send env entry.2.socket (str "PING\n"))).trans same
  | updateClientPong username =>
    simp only [exec, World.mapServer, Server.updateClientPong]
    split <;> rfl
  | banlistRemove username =>
    simp only [exec]
    split <;> rfl
  | _ => rfl

/-- A server that is not running never runs again. -/
theorem running_of_exec {env : Env} {β : Type} {action : Action β} {w : World}
    (running : (exec env action w).2.server.status = .running) : w.server.status = .running := by
  cases action with
  | stop => cases running
  | _ => exact (exec_status env (fun _ => .done ()) rfl w).symm.trans running

theorem running_of_run {env : Env} {program : Handler} {w : World}
    (running : (program.run (exec env) w).2.server.status = .running) :
    w.server.status = .running := by
  induction program generalizing w with
  | done => exact running
  | act action next ih => exact running_of_exec (ih _ running)

namespace Threads

theorem workers_setActivity {s : Threads} {i : ConnId} {worker : Worker} (activity : Activity)
    (present : s.workers[i]? = some worker) :
    (s.setActivity i activity).workers[i]? = some ⟨worker.socket, activity⟩ := by
  simp only [setActivity, List.getElem?_modify_eq, present]
  rfl

/-- A handler loop that is never interrupted carries out its whole program. -/
theorem run_worker (env : Env) (program : Handler) {s : Threads} {i : ConnId} {socket : Fd}
    {last : Bool} (present : s.workers[i]? = some ⟨socket, .running last program⟩)
    (running : (program.run (exec env) s.world).2.server.status = .running) :
    ∃ labels, Run step Free s labels
      ({ s with world := (program.run (exec env) s.world).2 }.setActivity i
        (if last then .returned else .receiving)) := by
  induction program generalizing s with
  | done =>
    have now : s.world.server.status = .running := running
    have stepped : step s (env, .advance i) =
        some (s.setActivity i (if last then .returned else .receiving)) := by
      simp only [step, now, present, ne_eq, not_true_eq_false, if_false]
    exact ⟨_, .single trivial stepped⟩
  | act action next ih =>
    have now : s.world.server.status = .running := running_of_exec (running_of_run running)
    let after := { s with world := (exec env action s.world).2 }.setActivity i
      (.running last (next (exec env action s.world).1))
    have stepped : step s (env, .advance i) = some after := by
      simp only [step, now, present, ne_eq, not_true_eq_false, if_false]
      rfl
    obtain ⟨labels, rest⟩ := ih _ (s := after) (workers_setActivity _ present) running
    simp only [after, setActivity, List.modify_modify_eq] at rest
    exact ⟨_, .next trivial stepped rest⟩

/-- So does any other thread. -/
theorem run_task (env : Env) (program : Handler) {s : Threads} {tasks : List Handler}
    (present : s.tasks = tasks ++ [program])
    (running : (program.run (exec env) s.world).2.server.status = .running) :
    ∃ labels, Run step Free s labels
      { s with world := (program.run (exec env) s.world).2, tasks } := by
  induction program generalizing s with
  | done =>
    have now : s.world.server.status = .running := running
    have stepped : step s (env, .advanceTask tasks.length) = some { s with tasks } := by
      simp [step, now, present, List.eraseIdx_append_of_length_le (Nat.le_refl _)]
    exact ⟨_, .single trivial stepped⟩
  | act action next ih =>
    have now : s.world.server.status = .running := running_of_exec (running_of_run running)
    let after : Threads := { s with
      world := (exec env action s.world).2
      tasks := tasks ++ [next (exec env action s.world).1] }
    have stepped : step s (env, .advanceTask tasks.length) = some after := by
      simp [step, now, present, after]
    obtain ⟨labels, rest⟩ := ih _ (s := after) rfl running
    exact ⟨_, .next trivial stepped rest⟩

theorem workers_ofSystem {s : System} {i : ConnId} {socket : Fd} (live : s.liveLoop i = some socket) :
    (ofSystem s).workers[i]? = some ⟨socket, .receiving⟩ := by
  simp only [ofSystem, List.getElem?_map, System.liveLoop_eq_some.mp live, Option.map_some, if_true]

theorem modify_receiving {s : System} {i : ConnId} {socket : Fd} (live : s.liveLoop i = some socket) :
    (ofSystem s).workers.modify i (fun worker => { worker with activity := .receiving }) =
      (ofSystem s).workers := by
  apply List.ext_getElem?
  intro j
  by_cases same : i = j
  · rw [← same, List.getElem?_modify_eq, workers_ofSystem live]
    rfl
  · rw [List.getElem?_modify_ne _ _ same]

theorem modify_returned (s : System) (i : ConnId) :
    (ofSystem s).workers.modify i (fun worker => { worker with activity := .returned }) =
      (ofSystem (s.endLoop i)).workers := by
  apply List.ext_getElem?
  intro j
  simp only [ofSystem, System.endLoop, List.getElem?_modify, List.getElem?_map, Option.map_eq_map]
  cases s.loops[j]? with
  | none => rfl
  | some loop =>
    by_cases same : i = j
    · simp [same]
    · simp [same]

/-- Each operation of the coarse system is a run of the threads. -/
theorem simulates {s after : System} {label : Env × Operation}
    (stepped : System.step s label = some after)
    (running : after.world.server.status = .running) :
    ∃ labels, Run step Free (ofSystem s) labels (ofSystem after) := by
  obtain ⟨env, operation⟩ := label
  obtain ⟨now, stepped⟩ := System.step_cases stepped
  have ready : (ofSystem s).world.server.status = .running := now
  have task : ∀ task : Task, after = s.execute env task.program →
      ∃ labels, Run step Free (ofSystem s) labels (ofSystem after) := by
    intro task same
    subst same
    have begun : step (ofSystem s) (env, .start task) =
        some { ofSystem s with tasks := [task.program] } := by
      simp only [step, ready, ne_eq, not_true_eq_false, if_false]
      rfl
    have alone : { ofSystem s with tasks := [task.program] }.tasks = [] ++ [task.program] := rfl
    obtain ⟨labels, rest⟩ := run_task env task.program alone running
    exact ⟨_, .next trivial begun rest⟩
  have iteration : ∀ {i : ConnId} {socket : Fd} (last : Bool) {program : Handler},
      s.liveLoop i = some socket → after.world = (program.run (exec env) s.world).2 →
      ∃ labels, Run step Free ((ofSystem s).setActivity i (.running last program)) labels
        { ofSystem s with
          world := after.world
          workers := (ofSystem s).workers.modify i fun worker =>
            { worker with activity := if last then .returned else .receiving } } := by
    intro i socket last program live same
    obtain ⟨labels, rest⟩ := run_worker env program
      (workers_setActivity (.running last program) (workers_ofSystem live)) (same ▸ running)
    refine ⟨labels, ?_⟩
    simp only [setActivity, List.modify_modify_eq] at rest
    rw [same]
    exact rest
  cases stepped with
  | @accept socket nonneg free =>
    have accepted : step (ofSystem s) (env, .accept socket) = some (ofSystem
        ⟨s.world.accept socket s.loops.length, s.loops ++ [⟨socket, true⟩]⟩) := by
      simp only [step, ofSystem, now, nonneg, free, ne_eq, not_true_eq_false, if_false, and_self,
        if_true, List.length_map, List.map_append, List.map_cons, List.map_nil]
    exact ⟨_, .single trivial accepted⟩
  | @receive i raw socket conn live used admissible =>
    have open_ : (ofSystem s).world.os.user socket = some conn := used
    have begun : step (ofSystem s) (env, .receive i raw) = some ((ofSystem s).setActivity i
        (.running false (CommandHandler.handleMessage raw socket))) := by
      simp [step, ready, workers_ofSystem live, open_, admissible]
    obtain ⟨labels, rest⟩ := iteration false live rfl
    simp only [Bool.false_eq_true, if_false, modify_receiving live] at rest
    exact ⟨_, .next trivial begun rest⟩
  | @receiveFailure i socket live =>
    have begun : step (ofSystem s) (env, .receiveFailure i) = some ((ofSystem s).setActivity i
        (.running true (CommandHandler.handleReceiveFailure socket))) := by
      simp [step, ready, workers_ofSystem live]
    obtain ⟨labels, rest⟩ := iteration true live rfl
    simp only [if_true, modify_returned] at rest
    exact ⟨_, .next trivial begun rest⟩
  | dispatch => exact task .dispatch rfl
  | @admin line => exact task (.admin line) rfl
  | heartbeat => exact task .heartbeat rfl
  | checkTimeouts => exact task .checkTimeouts rfl

theorem simulates_run {s after : System} {labels : List (Env × Operation)}
    (run : Run System.step Free s labels after)
    (running : after.world.server.status = .running) :
    ∃ moves, Run step Free (ofSystem s) moves (ofSystem after) := by
  induction run with
  | refl s => exact ⟨[], .refl _⟩
  | @next s t after _ _ _ stepped rest ih =>
    obtain ⟨later, second⟩ := ih running
    have between : t.world.server.status = .running := by
      cases rest with
      | refl => exact running
      | next _ again _ => exact (System.step_cases again).1
    obtain ⟨now, first⟩ := simulates stepped between
    exact ⟨now ++ later, first.trans second⟩

/-- Every reachable state of the coarse system is reached by the threads. -/
theorem reaches_ofSystem {s : System} (reached : System.Reachable s)
    (running : s.world.server.status = .running) :
    ∃ banlist, Transition.Reachable step (initial banlist) (ofSystem s) := by
  obtain ⟨banlist, labels, run⟩ := reached
  exact ⟨banlist, simulates_run run running⟩

end Threads
end SocketMessaging
