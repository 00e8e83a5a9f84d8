import SocketMessaging.Library.Locks
import SocketMessaging.Server.Actions

/-! The mutexes of the server's process. Within a lock the code at most writes to the
log, so its threads cannot deadlock. But a signal may come while the thread that it
interrupts holds a lock, and its handler calls `Server::stop` on that thread. -/
namespace SocketMessaging
open Prog Transition Locks

inductive Mutex where
  | queueMutex
  | configMutex
  | bannedUsersMutex
  | messagesMutex
  | clientsMutex
  | logMutex
  deriving DecidableEq

/-- A lock is never taken within one of the same or a higher rank. `clientsMutex` is
set apart for the signal handler. -/
def Mutex.rank : Mutex → Nat
  | .logMutex => 2
  | .clientsMutex => 1
  | _ => 0

/-- The functions that lock. A scope that ends in a wait is one call, and what follows
the wakeup another one. A `stop` that finds the server stopped is none of them. -/
inductive LockedCall where
  | log
  | setLogFile
  | setVerbose
  | enqueue
  | workerThread
  | set
  | getInt
  | getBool
  | listAll
  | reset
  | banlistAdd
  | banlistRemove (found : Bool)
  | isBanned
  | loadBanlist
  | stop
  | getUsernameBySocket
  | getUserSocket
  | isUsernameTaken
  | registerClient
  | unregisterClient
  | updateClientPong
  | getClientCount
  | getAllClients
  | heartbeatLoop (clients : Nat)
  | checkClientTimeouts (timedOut : Nat)
  | queueMessage (full : Bool)
  | dispatcherRun
  | dispatcherStop

namespace LockedCall

/-- A call of `Logger::log`. -/
def logging : List (LockOp Mutex) := [.acquire .logMutex, .release .logMutex]

/-- A scope with a lock in which the log is written so many times. -/
def guarded (mutex : Mutex) (entries : Nat) : List (LockOp Mutex) :=
  .acquire mutex :: ((List.replicate entries logging).flatten ++ [.release mutex])

def ops : LockedCall → List (LockOp Mutex)
  | .log | .setLogFile | .setVerbose => logging
  | .enqueue | .workerThread => guarded .queueMutex 0
  | .set | .reset => guarded .configMutex 1
  | .getInt | .getBool | .listAll => guarded .configMutex 0
  | .banlistAdd | .loadBanlist => guarded .bannedUsersMutex 1
  | .banlistRemove found => guarded .bannedUsersMutex found.toNat
  | .isBanned => guarded .bannedUsersMutex 0
  | .stop => logging ++ guarded .clientsMutex 0 ++ logging
  | .getUsernameBySocket | .getUserSocket | .isUsernameTaken | .registerClient
  | .unregisterClient | .updateClientPong | .getClientCount | .getAllClients =>
    guarded .clientsMutex 0
  | .heartbeatLoop clients => guarded .clientsMutex clients
  | .checkClientTimeouts timedOut => guarded .clientsMutex timedOut
  | .queueMessage full => guarded .messagesMutex full.toNat
  | .dispatcherRun | .dispatcherStop => guarded .messagesMutex 0

end LockedCall

/-- The call that an action stands for, if it locks. -/
def Action.lockedCall (env : Env) (w : World) : ∀ {β : Type}, Action β → Option LockedCall
  | _, .getUsernameBySocket _ => some .getUsernameBySocket
  | _, .getUserSocket _ => some .getUserSocket
  | _, .isUsernameTaken _ => some .isUsernameTaken
  | _, .registerClient _ _ => some .registerClient
  | _, .unregisterClient _ => some .unregisterClient
  | _, .updateClientPong _ => some .updateClientPong
  | _, .getAllClients => some .getAllClients
  | _, .getTimedOutClients => some (.checkClientTimeouts (w.server.getTimedOutClients env).length)
  | _, .pingClients => some (.heartbeatLoop (env.visit w.server.clients).length)
  | _, .isBanned _ => some .isBanned
  | _, .banlistAdd _ => some .banlistAdd
  | _, .banlistRemove username => some (.banlistRemove (w.server.isBanned username))
  | _, .queueMessage _ => some (.queueMessage
      (sizeOfInt w.server.dispatcher.config.maxStoredMessages ≤ w.server.dispatcher.messages.length))
  | _, .popMessage => some .dispatcherRun
  | _, .runtimeConfig => some .getInt
  | _, .setConfig _ _ => some .set
  | _, .resetConfig => some .reset
  | _, .stop => some .stop
  | _, .incrementMessagesSent | _, .incrementMessagesReceived | _, .systemClock | _, .serverLog
  | _, .send _ _ | _, .close _ | _, .outOfRange => none

/-- The calls that a program makes one after the other. -/
def lockedCalls (env : Env) : Handler → World → List LockedCall
  | .done _, _ => []
  | .act action next, w => (action.lockedCall env w).toList ++
      lockedCalls env (next (exec env action w).1) (exec env action w).2

namespace Mutexes
variable {s t : Locks Mutex} {thread : Locker Mutex} {k : Nat}

/-- Threads that are in none of the calls. -/
def idle (threads : Nat) : Locks Mutex := List.replicate threads ⟨[], []⟩

def OfCall (ops : List (LockOp Mutex)) : Prop := ∃ call : LockedCall, ops = call.ops

theorem logs_ordered (entries : Nat) :
    Ordered Mutex.rank [] (List.replicate entries LockedCall.logging).flatten := by
  induction entries with
  | zero => rfl
  | succ entries ih =>
    rw [List.replicate_succ, List.flatten_cons]
    exact Ordered.called ih nofun (by decide)

theorem log_of_logs {entries : Nat} {mutex : Mutex}
    (taken : .acquire mutex ∈ (List.replicate entries LockedCall.logging).flatten) :
    mutex = .logMutex := by
  obtain ⟨ops, member, taken⟩ := List.mem_flatten.mp taken
  rw [(List.mem_replicate.mp member).2] at taken
  simpa [LockedCall.logging] using taken

theorem guarded_ordered (mutex : Mutex) (entries : Nat) (below : mutex.rank < 2) :
    Ordered Mutex.rank [] (LockedCall.guarded mutex entries) := by
  refine ⟨nofun, ?_⟩
  have released : Ordered Mutex.rank [mutex] [.release mutex] :=
    ⟨List.mem_singleton.mpr rfl, List.erase_cons_head ..⟩
  refine released.called (fun taken member other held => ?_) (logs_ordered entries)
  rw [List.mem_singleton.mp held, log_of_logs member]
  exact below

/-- The log is the only lock that is taken within another one. -/
theorem ops_ordered (call : LockedCall) : Ordered Mutex.rank [] call.ops := by
  cases call with
  | log | setLogFile | setVerbose => exact logs_ordered 1
  | stop =>
    exact ((logs_ordered 1).called nofun (guarded_ordered .clientsMutex 0 (by decide))).called nofun
      (logs_ordered 1)
  | enqueue | workerThread => exact guarded_ordered .queueMutex 0 (by decide)
  | set | reset => exact guarded_ordered .configMutex 1 (by decide)
  | getInt | getBool | listAll => exact guarded_ordered .configMutex 0 (by decide)
  | banlistAdd | loadBanlist => exact guarded_ordered .bannedUsersMutex 1 (by decide)
  | banlistRemove | isBanned => exact guarded_ordered .bannedUsersMutex _ (by decide)
  | queueMessage | dispatcherRun | dispatcherStop =>
    exact guarded_ordered .messagesMutex _ (by decide)
  | _ => exact guarded_ordered .clientsMutex _ (by decide)

theorem idle_orderly (threads : Nat) : Orderly Mutex.rank (idle threads) := by
  intro thread member
  rw [(List.mem_replicate.mp member).2]
  rfl

theorem run_orderly {threads : Nat} {moves : List (Locks.Move Mutex)}
    (run : Run step (Calls OfCall) (idle threads) moves s) : Orderly Mutex.rank s := by
  refine (idle_orderly threads).run (fun ops called => ?_) run
  obtain ⟨call, rfl⟩ := called
  exact ops_ordered call

/-- The threads of the server cannot deadlock: however many there are and whatever calls
they have begun, all of these can be brought to their end, with every lock given back. -/
theorem calls_complete {threads : Nat} {moves : List (Locks.Move Mutex)}
    (run : Run step (Calls OfCall) (idle threads) moves s) : ∃ more t, Run step Going s more t ∧
      ∀ thread ∈ t, thread = ⟨[], []⟩ :=
  (run_orderly run).completes

theorem call_alone {threads : Nat} (call : LockedCall) (inside : k < threads) : ∃ moves,
    Run step (Calls OfCall) (idle threads) moves (idle threads) ∧
      moves.filterMap Move.begun = [(k, call.ops)] := by
  have present : (idle threads)[k]? = some ⟨[], []⟩ := by
    rw [idle, List.getElem?_replicate, if_pos inside]
  have begins : Calls OfCall (idle threads) (.call k call.ops) := by
    refine ⟨⟨call, rfl⟩, fun thread here => ?_⟩
    cases present.symm.trans here
    rfl
  have stepped : step (idle threads) (.call k call.ops) =
      some ((idle threads).set k ⟨[], call.ops⟩) := by
    rw [step, present, Option.map_some, List.append_nil]
  have begun := Run.single begins stepped
  obtain ⟨moves, t, onward, ended⟩ := (run_orderly begun).completes
  have same : t = idle threads := by
    refine List.eq_replicate_iff.mpr ⟨?_, ended⟩
    refine onward.invariant (P := fun s => s.length = threads)
      (fun same _ stepped => (length_step stepped).trans same) ?_
    rw [List.length_set, idle, List.length_replicate]
  rw [same] at onward
  refine ⟨_, begun.trans (calls_of_going onward), ?_⟩
  rw [List.filterMap_append, begun_of_going onward]
  rfl

/-- A program that is performed without interruption makes its calls one after the other. -/
theorem program_alone {threads : Nat} (env : Env) (program : Handler) (w : World)
    (inside : k < threads) : ∃ moves,
    Run step (Calls OfCall) (idle threads) moves (idle threads) ∧
      moves.filterMap Move.begun = (lockedCalls env program w).map fun call => (k, call.ops) := by
  induction program generalizing w with
  | done => exact ⟨[], .refl _, rfl⟩
  | act action next ih =>
    obtain ⟨later, run, made⟩ := ih (exec env action w).1 (exec env action w).2
    cases called : action.lockedCall env w with
    | none =>
      refine ⟨later, run, ?_⟩
      rw [lockedCalls, called]
      exact made
    | some call =>
      obtain ⟨first, alone, one⟩ := call_alone call inside
      refine ⟨first ++ later, alone.trans run, ?_⟩
      rw [lockedCalls, called, List.filterMap_append, one, made]
      rfl

/-- A check that is enough for a move to be one of these calls, or a step of a thread. -/
def admits (calls : List LockedCall) (s : Locks Mutex) : Locks.Move Mutex → Bool
  | .call k ops => calls.any (fun call => ops = call.ops) && s[k]?.all fun thread => thread.todo = []
  | .go _ => true

theorem calls_of_admits {calls : List LockedCall} (s : Locks Mutex) (move : Locks.Move Mutex)
    (passed : admits calls s move = true) : Calls OfCall s move := by
  cases move with
  | go => trivial
  | call k ops =>
    obtain ⟨listed, idle⟩ := Bool.and_eq_true_iff.mp passed
    obtain ⟨call, _, same⟩ := List.any_eq_true.mp listed
    refine ⟨⟨call, of_decide_eq_true same⟩, fun thread present => ?_⟩
    rw [present] at idle
    exact of_decide_eq_true idle

/-- Two threads wait for the one that pings the clients. -/
theorem calls_complete_of_three : ∃ s t : Locks Mutex,
    s.map Locker.held = [[.logMutex, .clientsMutex], [], []] ∧
    (step s (.go 1)).isNone = true ∧ (step s (.go 2)).isNone = true ∧
    ∀ thread ∈ t, thread = ⟨[], []⟩ := by
  let moves : List (Locks.Move Mutex) :=
    [.call 0 (LockedCall.heartbeatLoop 2).ops, .call 1 LockedCall.getUserSocket.ops,
      .call 2 LockedCall.log.ops, .go 0, .go 0]
  obtain ⟨s, ran, held, first, second⟩ := evaluated
    (o := Transition.execute (guarded (admits [.heartbeatLoop 2, .getUserSocket, .log]) step)
      (idle 3) moves)
    (P := fun s => s.map Locker.held = [[.logMutex, .clientsMutex], [], []] ∧
      (step s (.go 1)).isNone = true ∧ (step s (.go 2)).isNone = true)
    (by decide)
  obtain ⟨_, t, _, ended⟩ := calls_complete (run_of_guarded calls_of_admits _ ran)
  exact ⟨s, t, held, first, second, ended⟩

end Mutexes
end SocketMessaging
