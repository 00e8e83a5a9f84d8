import SocketMessaging.Server.Conservation
import SocketMessaging.Server.Names
import SocketMessaging.Server.Ownership

/-! Whether the settings are followed. The scan for timed-out clients compares
with a constant and the queue with the bound its configuration started with, so
both disagree with the store as soon as a value lies between the two limits. -/
namespace SocketMessaging
open Prog Transition

/-- Two limits separate the numbers alike except for those between them. -/
theorem lt_agree_iff {a b x : Int} : (a < x ↔ b < x) ↔ ¬(min a b < x ∧ x ≤ max a b) := by
  omega

theorem le_agree_iff {a b x : Int} : (a ≤ x ↔ b ≤ x) ↔ ¬(min a b ≤ x ∧ x < max a b) := by
  omega

/-- Whole seconds since the last PONG. -/
def ClientInfo.silence (env : Env) (info : ClientInfo) : Int :=
  (env.steadyClock - info.lastPong).tdiv 1000000000

/-- The message is not just put at the end of the queue. -/
def Dispatcher.AppliesPolicy (message : Message) (d : Dispatcher) : Prop :=
  d.queueMessage message ≠ (true, { d with messages := d.messages ++ [message] })

/-- The action does what the settings say at this moment. -/
def Action.Follows (env : Env) (w : World) : ∀ {β : Type}, Action β → Prop
  | _, .getTimedOutClients => ∃ limit,
      w.runtimeConfig.getInt (str "HEARTBEAT_TIMEOUT_S") = some limit ∧
      ∀ username, username ∈ (exec env .getTimedOutClients w).1 ↔
        ∃ info, w.server.clients.lookup username = some info ∧ limit < info.silence env
  | _, .queueMessage message => ∃ limit,
      w.runtimeConfig.getInt (str "MAX_QUEUE_SIZE") = some limit ∧
      (w.server.dispatcher.AppliesPolicy message ↔ limit ≤ w.queue.length)
  | _, _ => True

/-- Neither a silence nor the length of the queue lies between the limit that the
code uses and the one that is set. -/
def Action.Unaffected (env : Env) (w : World) : ∀ {β : Type}, Action β → Prop
  | _, .getTimedOutClients => ∀ limit ∈ w.runtimeConfig.getInt (str "HEARTBEAT_TIMEOUT_S"),
      ∀ username, ∀ info ∈ w.server.clients.lookup username,
        ¬(min Constants.heartbeatTimeoutS limit < info.silence env ∧
          info.silence env ≤ max Constants.heartbeatTimeoutS limit)
  | _, .queueMessage _ => ∀ limit ∈ w.runtimeConfig.getInt (str "MAX_QUEUE_SIZE"),
      ¬(min 10000 limit ≤ w.queue.length ∧ w.queue.length < max 10000 limit)
  | _, _ => True

section Following
variable {w : World} {env : Env}

theorem mem_getTimedOutClients (server : Server) (username : Str) :
    username ∈ server.getTimedOutClients env ↔ ∃ info,
      server.clients.lookup username = some info ∧ Constants.heartbeatTimeoutS < info.silence env := by
  simp only [Server.getTimedOutClients, List.mem_map, List.mem_filter, decide_eq_true_eq]
  constructor
  · rintro ⟨entry, ⟨visited, late⟩, rfl⟩
    exact ⟨entry.2, (env.mem_visit _ _ _).mp visited, late⟩
  · rintro ⟨info, present, late⟩
    exact ⟨(username, info), ⟨(env.mem_visit _ _ _).mpr present, late⟩, rfl⟩

theorem appliesPolicy_iff {d : Dispatcher} (configured : d.config = {}) (message : Message) :
    d.AppliesPolicy message ↔ (10000 : Int) ≤ d.messages.length := by
  have capacity : sizeOfInt d.config.maxStoredMessages = 10000 := by rw [configured]; rfl
  have policy : d.config.queuePolicy = .reject := by rw [configured]
  rw [Dispatcher.AppliesPolicy, Dispatcher.queueMessage, capacity, policy]
  split
  · rename_i full
    exact iff_of_true (fun same => Bool.false_ne_true (congrArg Prod.fst same)) (by omega)
  · rename_i fits
    exact iff_of_false (fun other => other rfl) (by omega)

/-- An action follows the settings exactly if it is not affected by the difference. -/
theorem follows_iff (config : w.runtimeConfig.WellFormed) (configured : w.server.dispatcher.config = {})
    {β : Type} (action : Action β) : action.Follows env w ↔ action.Unaffected env w := by
  cases action with
  | getTimedOutClients =>
    have setting : (str "HEARTBEAT_TIMEOUT_S", _) ∈ RuntimeConfig.definitions :=
      mem_of_lookup rfl
    obtain ⟨limit, stored, _⟩ := config.getInt setting rfl
    simp only [Action.Follows, Action.Unaffected, stored, Option.some.injEq, Option.mem_def,
      exists_eq_left', forall_eq', exec, mem_getTimedOutClients]
    constructor
    · intro same username info present
      apply lt_agree_iff.mp
      simpa only [present, Option.some.injEq, exists_eq_left'] using same username
    · intro agree username
      refine exists_congr fun info => and_congr_right fun present => ?_
      exact lt_agree_iff.mpr (agree username info present)
  | queueMessage message =>
    have setting : (str "MAX_QUEUE_SIZE", _) ∈ RuntimeConfig.definitions :=
      mem_of_lookup rfl
    obtain ⟨limit, stored, _⟩ := config.getInt setting rfl
    simp only [Action.Follows, Action.Unaffected, stored, Option.some.injEq, Option.mem_def,
      exists_eq_left', forall_eq', appliesPolicy_iff configured]
    exact le_agree_iff
  | _ => exact Iff.rfl

/-- Nothing changes the configuration of the dispatcher. -/
theorem exec_configured (env : Env) {β : Type} (action : Action β) (w : World) :
    (exec env action w).2.server.dispatcher.config = w.server.dispatcher.config := by
  by_cases leaves : action.leavesQueue = true
  · rw [exec_dispatcher env w leaves]
  · cases action with
    | queueMessage message =>
      simp only [exec, World.queueMessage, World.mapServer, Dispatcher.queueMessage]
      split
      · split <;> rfl
      · rfl
    | popMessage => rfl
    | _ => exact absurd rfl leaves

end Following

namespace Threads
variable {s after : Threads}

/-- The next action of whoever moves follows the settings. -/
def Follows (s : Threads) (label : Env × Move) : Prop :=
  ∀ {β : Type} {action : Action β} {next : β → Handler},
    s.advanced label.2 = .act action next → action.Follows label.1 s.world

def Unaffected (s : Threads) (label : Env × Move) : Prop :=
  ∀ {β : Type} {action : Action β} {next : β → Handler},
    s.advanced label.2 = .act action next → action.Unaffected label.1 s.world

/-- What the two limits are known to be. -/
structure Configured (s : Threads) : Prop where
  named : s.Named Username AnyTask
  dispatcher : s.world.server.dispatcher.config = {}

theorem Configured.follows_iff (configured : s.Configured) (label : Env × Move) :
    s.Follows label ↔ s.Unaffected label := by
  have action : ∀ {β : Type} (action : Action β),
      action.Follows label.1 s.world ↔ action.Unaffected label.1 s.world :=
    SocketMessaging.follows_iff configured.named.world.config configured.dispatcher
  constructor
  · exact fun follows _ _ _ advances => (action _).mp (follows advances)
  · exact fun unaffected _ _ _ advances => (action _).mpr (unaffected advances)

theorem step_configured {label : Env × Move} (configured : s.Configured)
    (stepped : step s label = some after) : after.Configured := by
  refine ⟨step_valid configured.named stepped, Eq.trans ?_ configured.dispatcher⟩
  obtain ⟨env, move⟩ := label
  obtain ⟨_, stepped⟩ := step_cases stepped
  cases stepped with
  | perform | performTask => exact exec_configured env _ s.world
  | accept | receive | receiveFailure | finish | start | finishTask => rfl

theorem initial_configured (banlist : Option Str) : (initial banlist).Configured :=
  ⟨initial_named Username AnyTask banlist, rfl⟩

/-- In a run of any tasks and clients the settings are followed at a step, and at
all steps, exactly if no silence and no queue lies between the limits there. -/
theorem settings_followed_iff {banlist : Option Str} {moves : List (Env × Move)}
    (run : Run step Free (initial banlist) moves s) :
    (∀ label, s.Follows label ↔ s.Unaffected label) ∧
    (Run step Follows (initial banlist) moves s ↔ Run step Unaffected (initial banlist) moves s) := by
  have configured := run.invariant (fun held _ stepped => step_configured held stepped)
    (initial_configured banlist)
  refine ⟨configured.follows_iff, fun follows => ?_, fun unaffected => ?_⟩
  · refine (follows.along (fun held _ stepped => step_configured held stepped)
      (initial_configured banlist)).weaken fun s label both => ?_
    exact (both.2.follows_iff label).mp both.1
  · refine (unaffected.along (fun held _ stepped => step_configured held stepped)
      (initial_configured banlist)).weaken fun s label both => ?_
    exact (both.2.follows_iff label).mpr both.1

/-- ann has logged in, the timeout was set to 60 and the check for timeouts begins. -/
theorem check_after_set : ∃ (moves : List (Env × Move)) (s : Threads),
    Run step Free (initial none) moves s ∧ s.advanced (.advanceTask 0) = checkClientTimeouts ∧
    s.world.runtimeConfig.getInt (str "HEARTBEAT_TIMEOUT_S") = some 60 ∧
    ∀ username info, s.world.server.clients.lookup username = some info ↔
      username = str "ann" ∧ info = ⟨5, 0, false⟩ := by
  let moves := plainMoves (annConnects ++
    [.start (.admin (str "/set HEARTBEAT_TIMEOUT_S 60")), .advanceTask 0, .advanceTask 0])
  obtain ⟨s, ran, running, idle, setting, clients⟩ := evaluated
    (o := execute step (initial none) moves)
    (P := fun s => s.world.server.status = .running ∧ s.tasks.length = 0 ∧
      s.world.runtimeConfig.getInt (str "HEARTBEAT_TIMEOUT_S") = some 60 ∧
      s.world.server.clients.entries = [⟨str "ann", ⟨5, 0, false⟩⟩]) (by decide)
  have started : step s (.plain, .start .checkTimeouts) = some { s with tasks := s.tasks ++ [checkClientTimeouts] } := by
    simp only [step, running, ne_eq, not_true_eq_false, if_false]
    rfl
  refine ⟨_, _, (execute_run moves ran).snoc trivial started, ?_, setting, fun username info => ?_⟩
  · rw [List.eq_nil_of_length_eq_zero idle]
    rfl
  · have present := AList.mem_lookup_iff (s := s.world.server.clients) (a := username) (b := info)
    rw [clients, List.mem_singleton, Sigma.mk.injEq, heq_eq_eq] at present
    exact present

/-- After a hundred seconds ann is timed out by both limits. -/
theorem settings_followed_of_ann : ∃ (moves : List (Env × Move)) (s : Threads),
    Run step Free (initial none) moves s ∧ s.Follows (.atSeconds 100, .advanceTask 0) ∧
    str "ann" ∈ s.world.server.getTimedOutClients (.atSeconds 100) := by
  obtain ⟨moves, s, run, advances, setting, clients⟩ := check_after_set
  refine ⟨moves, s, run, ((settings_followed_iff run).1 _).mpr fun {β action next} performed => ?_, ?_⟩
  · rw [advances] at performed
    cases performed
    intro limit stored username info present
    rw [setting] at stored
    obtain rfl := Option.some.inj stored
    obtain ⟨_, rfl⟩ := (clients username info).mp present
    decide
  · exact (mem_getTimedOutClients _ _).mpr ⟨_, (clients _ _).mpr ⟨rfl, rfl⟩, by decide⟩

/-- After seventy-five seconds she is not collected, although the timeout is set to 60. -/
theorem settings_not_always_followed : ¬ ∀ (banlist : Option Str) (moves : List (Env × Move))
    (s : Threads) (label : Env × Move), Run step Free (initial banlist) moves s → s.Follows label := by
  intro claimed
  obtain ⟨moves, s, run, advances, setting, clients⟩ := check_after_set
  obtain ⟨limit, stored, collects⟩ := claimed none moves s (.atSeconds 75, .advanceTask 0) run advances
  rw [setting] at stored
  obtain rfl := Option.some.inj stored
  have collected := (collects (str "ann")).mpr ⟨_, (clients _ _).mpr ⟨rfl, rfl⟩, by decide⟩
  obtain ⟨info, present, late⟩ := (mem_getTimedOutClients _ _).mp collected
  obtain ⟨_, rfl⟩ := (clients _ _).mp present
  exact absurd late (by decide)

end Threads
end SocketMessaging
