import SocketMessaging.Server.DispatcherSpecs

/-! What holds of every reachable state, whatever clients and administrators do:
the settings stay within their bounds, registered names are valid names, and the
queue holds well-formed messages within its capacity. -/
namespace SocketMessaging
open Prog Utils Sessions CommandHandler

/-- A name that passed the check under some admissible setting. -/
structure Username (name : Str) : Prop where
  text : NameText name
  bounded : name.length ≤ 100

theorem Username.of_valid {config : RuntimeConfig} (formed : config.WellFormed) {name : Str}
    (valid : isValidUsername config name = true) : Username name := by
  obtain ⟨text, bounded⟩ := isValidUsername_iff.mp valid
  exact ⟨text, Nat.le_trans bounded (usernameLimit_le formed)⟩

theorem Username.ne_nil {name : Str} (valid : Username name) : name ≠ [] := valid.text.1

/-- A message that the handler of SEND could have queued. -/
structure Message.Sound (message : Message) : Prop where
  sender : Username message.sender
  recipient : Username message.recipient
  subject : message.subject ≠ []
  body : message.body ≠ []

namespace World

structure Sound (w : World) : Prop where
  config : w.runtimeConfig.WellFormed
  dispatcher : w.server.dispatcher.config = {}
  names : ∀ {username socket}, w.table.handleOf username = some socket →
    Username username ∧ 0 ≤ socket
  queue : ∀ message ∈ w.queue, message.Sound
  bounded : w.queue.length ≤ w.capacity

variable {w v : World}

theorem Sound.rejecting (sound : w.Sound) : w.Rejecting := by
  rw [Rejecting, sound.dispatcher]

/-- Only the settings, the dispatcher and the registered names matter. -/
theorem Sound.transport (sound : w.Sound) (config : v.runtimeConfig = w.runtimeConfig)
    (dispatcher : v.server.dispatcher = w.server.dispatcher)
    (names : ∀ {username socket}, v.table.handleOf username = some socket →
      w.table.handleOf username = some socket) : v.Sound where
  config := config ▸ sound.config
  dispatcher := dispatcher ▸ sound.dispatcher
  names := fun named => sound.names (names named)
  queue := by
    rw [World.queue, dispatcher]
    exact sound.queue
  bounded := by
    rw [World.queue, capacity, dispatcher]
    exact sound.bounded

theorem Sound.setQueue (sound : w.Sound) {messages : List Message}
    (each : ∀ message ∈ messages, message.Sound) (bounded : messages.length ≤ w.capacity) :
    (w.setQueue messages).Sound where
  config := sound.config
  dispatcher := sound.dispatcher
  names := sound.names
  queue := each
  bounded := bounded

theorem Sound.registerClient (sound : w.Sound) (env : Env) {username : Str} {socket : Fd}
    (valid : Username username) (nonneg : 0 ≤ socket) :
    (w.registerClient env username socket).Sound where
  config := sound.config
  dispatcher := sound.dispatcher
  names := by
    intro name number named
    rw [handleOf_registerClient] at named
    split_ifs at named with same
    · cases named
      exact ⟨same ▸ valid, nonneg⟩
    · exact sound.names named
  queue := sound.queue
  bounded := sound.bounded

theorem dispatcher_pingClients (env : Env) (w : World) :
    (w.pingClients env).server.dispatcher = w.server.dispatcher ∧
      (w.pingClients env).runtimeConfig = w.runtimeConfig := by
  refine pingClients_keeps (I := fun v => v.server.dispatcher = w.server.dispatcher ∧
    v.runtimeConfig = w.runtimeConfig) ⟨rfl, rfl⟩ ?_
  rintro entry _ v ⟨dispatcher, config⟩
  refine ⟨Eq.trans ?_ dispatcher, Eq.trans ?_ config⟩
  · show (v.send env entry.2.socket (str "PING\n")).2.server.dispatcher = _
    rw [server_send]
  · simp only [pingClient, mapServer, send]
    split <;> rfl

theorem stop_frame (env : Env) (w : World) :
    (w.stop env).server.dispatcher = w.server.dispatcher ∧
      (w.stop env).runtimeConfig = w.runtimeConfig :=
  stop_keeps (I := fun v => v.server.dispatcher = w.server.dispatcher ∧
    v.runtimeConfig = w.runtimeConfig) ⟨rfl, rfl⟩ (fun _ _ _ kept => kept) fun _ kept => kept

end World

/-- Whether an action leaves the message queue alone. -/
def Action.leavesQueue {β : Type} : Action β → Bool
  | .queueMessage _ => false
  | .popMessage => false
  | _ => true

theorem exec_dispatcher (env : Env) {β : Type} {action : Action β} (w : World)
    (leaves : action.leavesQueue = true) :
    (exec env action w).2.server.dispatcher = w.server.dispatcher := by
  cases action with
  | queueMessage | popMessage => cases leaves
  | send socket message => exact congrArg Server.dispatcher (w.server_send env socket message)
  | pingClients => exact (w.dispatcher_pingClients env).1
  | stop => exact (w.stop_frame env).1
  | updateClientPong username =>
    simp only [exec, World.mapServer, Server.updateClientPong]
    split <;> rfl
  | banlistRemove username =>
    simp only [exec]
    split <;> rfl
  | _ => rfl

/-- Whether an action also leaves the settings alone and registers nobody. -/
def Action.addsNothing {β : Type} : Action β → Bool
  | .registerClient _ _ => false
  | .setConfig _ _ => false
  | .resetConfig => false
  | action => action.leavesQueue

theorem exec_runtimeConfig (env : Env) {β : Type} {action : Action β} (w : World)
    (adds : action.addsNothing = true) : (exec env action w).2.runtimeConfig = w.runtimeConfig := by
  cases action with
  | setConfig | resetConfig => cases adds
  | stop => exact (w.stop_frame env).2
  | pingClients => exact (w.dispatcher_pingClients env).2
  | send socket message =>
    simp only [exec, World.send]
    split <;> rfl
  | banlistRemove username =>
    simp only [exec]
    split <;> rfl
  | _ => rfl

theorem exec_handleOf (env : Env) {β : Type} {action : Action β} {w : World}
    (adds : action.addsNothing = true) {username : Str} {socket : Fd}
    (named : (exec env action w).2.table.handleOf username = some socket) :
    w.table.handleOf username = some socket := by
  have quietly : action.Quiet → w.table.handleOf username = some socket := fun quiet =>
    exec_quiet env action w quiet ▸ named
  cases action with
  | registerClient => cases adds
  | unregisterClient name =>
    simp only [exec, World.table_unregisterClient] at named
    exact (Table.handleOf_unregister named).2
  | close number =>
    simp only [exec, World.table_close] at named
    exact named
  | stop => simp [exec, World.table, World.stop, World.mapServer] at named
  | _ => exact quietly trivial

/-- Registrations and new messages have to be well formed; nothing else can do harm. -/
def Action.Admitted : ∀ {β : Type}, Action β → Prop
  | _, .registerClient username socket => Username username ∧ 0 ≤ socket
  | _, .queueMessage message => message.Sound
  | _, _ => True

theorem exec_sound (env : Env) {β : Type} (action : Action β) (w : World)
    (admitted : action.Admitted) (sound : w.Sound) : (exec env action w).2.Sound := by
  cases action with
  | registerClient username socket => exact sound.registerClient env admitted.1 admitted.2
  | queueMessage message =>
    simp only [exec, World.queueMessage_eq sound.rejecting]
    change (w.setQueue (BoundedQueue.pushAll w.capacity w.queue [message])).Sound
    refine sound.setQueue (fun other member => ?_) (BoundedQueue.length_pushAll_le sound.bounded)
    rcases BoundedQueue.mem_pushAll member with old | new
    · exact sound.queue other old
    · exact List.mem_singleton.mp new ▸ admitted
  | popMessage =>
    change (w.setQueue w.queue.tail).Sound
    refine sound.setQueue (fun other member => ?_) ?_
    · exact sound.queue other (List.mem_of_mem_tail member)
    · have bound := sound.bounded
      rw [List.length_tail]
      omega
  | setConfig key value =>
    exact ⟨RuntimeConfig.set_wellFormed sound.config key value, sound.dispatcher, sound.names,
      sound.queue, sound.bounded⟩
  | resetConfig =>
    exact ⟨RuntimeConfig.reset_wellFormed _, sound.dispatcher, sound.names, sound.queue,
      sound.bounded⟩
  | _ =>
    exact sound.transport (exec_runtimeConfig env w rfl) (exec_dispatcher env w rfl)
      fun named => exec_handleOf env rfl named

theorem Action.Inert.admitted {β : Type} {action : Action β} (inert : action.Inert) :
    action.Admitted := by
  cases action with
  | registerClient | queueMessage => exact inert.elim
  | _ => trivial

theorem run_sound (env : Env) {α : Type} {program : Prog Action α}
    (only : program.Only Action.Admitted) {w : World} (sound : w.Sound) :
    (program.run (exec env) w).2.Sound :=
  only.keeps (fun action v admitted held => exec_sound env action v admitted held) sound

theorem World.Sound.reply {w : World} (sound : w.Sound) (env : Env) (socket : Fd) (message : Str) :
    (w.reply env socket message).Sound := exec_sound env (.send socket message) w trivial sound

theorem World.Sound.close {w : World} (sound : w.Sound) (socket : Fd) : (w.close socket).Sound :=
  exec_sound .plain (.close socket) w trivial sound

theorem admitted_of_inert {α : Type} {program : Prog Action α} (only : program.Only Action.Inert) :
    program.Only Action.Admitted :=
  only.weaken fun _ inert => inert.admitted

theorem handleDisconnect_admitted (parsedData : List Str) (socket : Fd) :
    (handleDisconnect parsedData socket).Only Action.Admitted := by
  simp only [handleDisconnect, perform_bind, pure_eq, only_act, only_ite, only_done, only_perform,
    Action.Admitted, implies_true, and_self]

namespace AdminCommandHandler

theorem commandLine_admitted (line : Str) : (commandLine line).Only Action.Admitted :=
  (commandLine_ofConsole line).weaken fun action ofConsole => by
    cases action with
    | registerClient | queueMessage => exact ofConsole.elim
    | _ => trivial

end AdminCommandHandler

namespace CommandHandler

theorem handleConnect_sound (env : Env) {w : World} (sound : w.Sound) (parsedData : List Str)
    {socket : Fd} (nonneg : 0 ≤ socket) :
    ((handleConnect parsedData socket).run (exec env) w).2.Sound := by
  match parsedData with
  | [] | [_] =>
    rw [handleConnect_short (by simp)]
    exact sound
  | command :: name :: rest =>
    rw [handleConnect_run]
    dsimp only
    split_ifs with invalid banned taken
    · exact sound.reply env socket _
    · exact (sound.reply env socket _).close socket
    · exact sound.reply env socket _
    · have valid := Username.of_valid sound.config (by simpa using invalid)
      exact (sound.registerClient env valid nonneg).reply env socket _

/-- A message for a registered name, once its fields have passed the checks. -/
theorem requested_sound (env : Env) {w : World} (sound : w.Sound) {socket : Fd}
    {recipient subject body name : Str} (known : w.server.getUsernameBySocket env socket ≠ [])
    (subjectOk : isValidSubject w.runtimeConfig
      (requested env w socket recipient subject body).subject = true)
    (bodyOk : isValidBody (requested env w socket recipient subject body).body = true)
    (registered : ∃ number, w.table.handleOf name = some number) :
    Message.Sound { requested env w socket recipient subject body with recipient := name } := by
  obtain ⟨number, registered⟩ := registered
  refine ⟨?_, (sound.names registered).1, ?_, ?_⟩
  · rcases getUsernameBySocket_cases env socket w with named | ⟨empty, _⟩
    · exact (sound.names named).1
    · exact absurd empty known
  · intro empty
    rw [show (requested env w socket recipient subject body).subject = [] from empty] at subjectOk
    exact Bool.false_ne_true subjectOk
  · intro empty
    rw [show (requested env w socket recipient subject body).body = [] from empty] at bodyOk
    exact Bool.false_ne_true bodyOk

theorem mem_recipients {env : Env} {w : World} {sender name : Str}
    (member : name ∈ recipients sender (w.server.getAllClients env)) :
    name ≠ sender ∧ ∃ socket, w.table.handleOf name = some socket := by
  obtain ⟨listed, other⟩ := List.mem_filter.mp member
  obtain ⟨entry, copied, rfl⟩ := List.mem_map.mp listed
  obtain ⟨key, _, found⟩ := List.mem_filterMap.mp copied
  obtain ⟨info, present, rfl⟩ := Option.map_eq_some_iff.mp found
  exact ⟨by simpa using other, info.socket, handleOf_eq_some.mpr ⟨info, present, rfl⟩⟩

theorem handleSendMessage_sound (env : Env) {w : World} (sound : w.Sound) (parsedData : List Str)
    (socket : Fd) : ((handleSendMessage parsedData socket).run (exec env) w).2.Sound := by
  have counted : w.countReceived.Sound := exec_sound env .incrementMessagesReceived w trivial sound
  match parsedData with
  | [] | [_] | [_, _] | [_, _, _] =>
    rw [handleSendMessage_short (by simp)]
    exact sound.reply env socket _
  | command :: recipient :: subject :: body :: rest =>
    rw [handleSendMessage_run env sound.rejecting]
    dsimp only
    split_ifs with unknown badSubject badBody everyone absent free
    · exact sound.reply env socket _
    · exact counted.reply env socket _
    · exact counted.reply env socket _
    · refine (counted.setQueue (fun message member => ?_)
        (BoundedQueue.length_pushAll_le sound.bounded)).reply env socket _
      rcases BoundedQueue.mem_pushAll member with old | new
      · exact sound.queue message old
      · obtain ⟨name, listed, rfl⟩ := List.mem_map.mp new
        exact requested_sound env sound unknown (by simpa using badSubject)
          (by simpa using badBody) (mem_recipients listed).2
    · exact counted.reply env socket _
    · refine (counted.setQueue (fun message member => ?_) ?_).reply env socket _
      · rcases List.mem_append.mp member with old | new
        · exact sound.queue message old
        · have named := handleOf_of_getUserSocket (Int.not_le.mp absent)
          exact List.mem_singleton.mp new ▸ requested_sound env sound unknown
            (by simpa using badSubject) (by simpa using badBody) ⟨_, named⟩
      · rw [List.length_append, List.length_singleton]
        exact free
    · exact counted.reply env socket _

theorem handleMessage_sound (env : Env) {w : World} (sound : w.Sound) (raw : Str) {socket : Fd}
    (nonneg : 0 ≤ socket) : ((handleMessage raw socket).run (exec env) w).2.Sound := by
  have inert : ∀ handler : Handler, handler.Only Action.Inert →
      (handler.run (exec env) w).2.Sound := fun _ only => run_sound env (admitted_of_inert only) sound
  have handled := handleMessage_handled raw socket
  generalize handleMessage raw socket = program at handled ⊢
  cases handled with
  | invalid => exact sound
  | unknown | ping => exact inert _ ⟨trivial, fun _ => trivial⟩
  | connect => exact handleConnect_sound env sound _ nonneg
  | disconnect => exact run_sound env (handleDisconnect_admitted _ socket) sound
  | sendMessage => exact handleSendMessage_sound env sound _ socket
  | pong => exact inert _ (handlePong_inert _ socket)
  | listUsers => exact inert _ ⟨trivial, fun _ => ⟨trivial, fun _ => trivial⟩⟩
  | getLog => exact inert _ (handleGetLog_inert _ socket)

end CommandHandler

namespace System

structure Sound (s : System) : Prop where
  world : s.world.Sound
  loops : ∀ loop ∈ s.loops, 0 ≤ loop.socket

theorem Sound.nonneg {s : System} (sound : s.Sound) {i : ConnId} {socket : Fd}
    (live : s.liveLoop i = some socket) : 0 ≤ socket :=
  sound.loops _ (List.mem_of_getElem? (liveLoop_eq_some.mp live))

theorem Sound.execute {s : System} (sound : s.Sound) (env : Env) {handler : Handler}
    (result : (handler.run (exec env) s.world).2.Sound) : (s.execute env handler).Sound :=
  ⟨result, sound.loops⟩

theorem Sound.endLoop {s : System} (sound : s.Sound) (i : ConnId) : (s.endLoop i).Sound where
  world := sound.world
  loops := by
    intro loop member
    obtain ⟨j, found⟩ := List.getElem?_of_mem member
    simp only [System.endLoop, List.getElem?_modify] at found
    obtain ⟨old, present, rfl⟩ := Option.map_eq_some_iff.mp found
    have kept := sound.loops old (List.mem_of_getElem? present)
    split <;> exact kept

theorem step_sound {s after : System} {label : Env × Operation} (sound : s.Sound)
    (stepped : step s label = some after) : after.Sound := by
  obtain ⟨env, operation⟩ := label
  obtain ⟨_, stepped⟩ := step_cases stepped
  cases stepped with
  | @accept socket nonneg free =>
    refine ⟨sound.world.transport rfl rfl fun named => named, fun loop member => ?_⟩
    rcases List.mem_append.mp member with old | new
    · exact sound.loops loop old
    · exact List.mem_singleton.mp new ▸ nonneg
  | receive live used admissible =>
    exact sound.execute env (handleMessage_sound env sound.world _ (sound.nonneg live))
  | @receiveFailure i socket live =>
    refine (sound.execute env ?_).endLoop i
    rw [handleReceiveFailure_run]
    exact run_sound env (handleDisconnect_admitted [] socket) sound.world
  | dispatch =>
    have admitted := admitted_of_inert Dispatcher.runOnce_inert
    exact sound.execute env (run_sound env admitted sound.world)
  | admin =>
    have admitted := AdminCommandHandler.commandLine_admitted
    exact sound.execute env (run_sound env (admitted _) sound.world)
  | heartbeat =>
    have admitted : (perform Action.pingClients).Only Action.Admitted := ⟨trivial, fun _ => trivial⟩
    exact sound.execute env (run_sound env admitted sound.world)
  | checkTimeouts =>
    have admitted : checkClientTimeouts.Only Action.Admitted :=
      ⟨trivial, disconnectTimedOut_only (fun _ => trivial) (handleDisconnect_admitted [])⟩
    exact sound.execute env (run_sound env admitted sound.world)

theorem initial_sound (banlist : Option Str) : (initial banlist).Sound where
  world :=
    { config := RuntimeConfig.initial_wellFormed
      dispatcher := rfl
      names := fun named => by simp [World.table, initial] at named
      queue := fun message member => absurd member List.not_mem_nil
      bounded := Nat.zero_le _ }
  loops := fun loop member => absurd member List.not_mem_nil

theorem Reachable.sound {s : System} (reached : Reachable s) : s.Sound := by
  obtain ⟨banlist, reached⟩ := reached
  exact reached.invariant (initial_sound banlist) step_sound

end System
end SocketMessaging
