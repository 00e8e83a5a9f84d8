import SocketMessaging.Server.Bans

/-! Where names come from. Every name that a program acts on was registered before,
so what is known of all registrations is known of the senders of messages and of
the names that reach the ban set, however the threads take turns. -/
namespace SocketMessaging
open Prog Transition Utils MessageParser CommandHandler

/-- What lookups return where all registered names and all senders are as `N` says. -/
def Action.Yields (N : Str → Prop) : ∀ {β : Type}, Action β → β → Prop
  | _, .getUsernameBySocket _, username => username ≠ [] → N username
  | _, .getUserSocket username, socket => 0 < socket → N username
  | _, .getAllClients, clients => ∀ entry ∈ clients, N entry.1
  | _, .runtimeConfig, config => config.WellFormed
  | _, .popMessage, next => ∀ message ∈ next, N message.sender
  | _, _, _ => True

/-- Senders and banned names are as `N` says, registered ones are valid, and what
is sent is as `spoken` says. -/
def Action.Permitted (N spoken : Str → Prop) : ∀ {β : Type}, Action β → Prop
  | _, .registerClient username _ => Username username
  | _, .queueMessage message => N message.sender
  | _, .banlistAdd username => N username
  | _, .send _ message => spoken message
  | _, _ => True

abbrev Acts {α : Type} (N spoken : Str → Prop) (program : Prog Action α) : Prop :=
  program.Under (Action.Yields N) (Action.Permitted N spoken)

/-- The message does not begin like a MESSAGE. -/
def Plain (message : Str) : Prop := message.take 4 ≠ str "MESS"

/-- What a task may send: the dispatcher speaks for senders, the administrator's
announcements are for all to see, and everything else is no MESSAGE. -/
def Task.Speaks (N : Str → Prop) : Task → Str → Prop
  | .dispatch, message => Plain message ∨
      ∃ queued, N queued.sender ∧ message = Dispatcher.formattedMessage queued
  | .admin line, message => Plain message ∨ (AdminCommandHandler.Announces line ∧
      ∃ subject text, message = AdminCommandHandler.announcement subject text)
  | _, message => Plain message

section Programs
variable {N spoken : Str → Prop}

theorem plain_error (error : Str) : Plain (build (str "ERROR") [error]) :=
  show str "ERRO" ≠ str "MESS" by decide

theorem plain_ok (text : Str) : Plain (build (str "OK") [text]) := by
  have start : (build (str "OK") [text]).take 3 = str "OK;" := rfl
  intro same
  have prefixes := congrArg (List.take 3) same
  rw [List.take_take, Nat.min_eq_left (by decide), start] at prefixes
  exact absurd prefixes (by decide)

theorem handleDisconnect_names (parsedData : List Str) (socket : Fd) :
    Acts N spoken (handleDisconnect parsedData socket) := by
  apply Only.under
  simp only [handleDisconnect, perform_bind, pure_eq, only_act, only_ite, only_done, only_perform,
    Action.Permitted, implies_true, and_self]

namespace CommandHandler

theorem sendError_names (socket : Fd) (error : Str) : Acts N Plain (sendError socket error) :=
  ⟨plain_error error, fun _ _ => trivial⟩

theorem sendOK_names (socket : Fd) (message : Str) : Acts N Plain (sendOK socket message) :=
  ⟨plain_ok _, fun _ _ => trivial⟩

/-- Only a name that passes the check under the current settings is registered. -/
theorem handleConnect_names (parsedData : List Str) (socket : Fd) :
    Acts N Plain (handleConnect parsedData socket) := by
  have error := fun text => sendError_names (N := N) socket text
  match parsedData with
  | [] | [_] =>
    rw [handleConnect_short (by simp)]
    trivial
  | command :: name :: rest =>
    rw [handleConnect_eq]
    refine ⟨trivial, fun config formed => ?_⟩
    change (if !isValidUsername config (sanitize name) then _ else _ : Handler).Under _ _
    split_ifs with invalid
    · exact error _
    · have valid := Username.of_valid formed (by simpa using invalid)
      refine ⟨trivial, fun banned _ => ?_⟩
      change (if banned then _ else _ : Handler).Under _ _
      split_ifs
      · exact (error _).bind fun _ => ⟨trivial, fun _ _ => trivial⟩
      · refine ⟨trivial, fun taken _ => ?_⟩
        change (if taken then _ else _ : Handler).Under _ _
        split_ifs
        · exact error _
        · exact ⟨valid, fun _ _ => ⟨plain_ok _, fun _ _ => trivial⟩⟩

theorem queueBroadcast_names {message : Message} (sender : N message.sender)
    (clients : List (Str × Fd)) : Acts N Plain (queueBroadcast message clients) := by
  induction clients with
  | nil => trivial
  | cons entry clients ih =>
    obtain ⟨username, socket⟩ := entry
    unfold queueBroadcast
    split
    · exact ⟨sender, fun _ _ => ih⟩
    · exact ih

/-- A message carries the name found for the socket that it came from. -/
theorem handleSendMessage_names (parsedData : List Str) (socket : Fd) :
    Acts N Plain (handleSendMessage parsedData socket) := by
  have error := fun text => sendError_names (N := N) socket text
  have ok := fun text => sendOK_names (N := N) socket text
  by_cases short : parsedData.length < 4
  · simp only [handleSendMessage, short, if_true]
    exact (error _).bind fun _ => trivial
  · simp only [handleSendMessage, short, if_false, nth_of_lt (show 1 < parsedData.length by omega),
      nth_of_lt (show 2 < parsedData.length by omega),
      nth_of_lt (show 3 < parsedData.length by omega), perform_bind, done_bind, pure_eq, under_act,
      under_ite, Action.Permitted, true_and]
    intro sender known
    refine ⟨fun _ => (error _).bind fun _ => trivial, fun found _ _ clock _ config _ => ?_⟩
    have sender := known found
    refine ⟨fun _ => (error _).bind fun _ => trivial, fun _ => ?_⟩
    refine ⟨fun _ => (error _).bind fun _ => trivial, fun _ => ?_⟩
    constructor
    · intro _ clients _
      exact (queueBroadcast_names sender _).bind fun _ => (ok _).bind fun _ => trivial
    · intro _ recipientSocket _
      refine ⟨fun _ => (error _).bind fun _ => trivial, fun _ => ⟨sender, fun queued _ => ?_⟩⟩
      exact ⟨fun _ => ok _, fun _ => error _⟩

theorem handlePong_names (parsedData : List Str) (socket : Fd) :
    Acts N spoken (handlePong parsedData socket) := by
  apply Only.under
  simp only [handlePong, perform_bind, pure_eq, only_act, only_ite, only_done, only_perform,
    Action.Permitted, implies_true, and_self]

theorem handleGetLog_names (parsedData : List Str) (socket : Fd) :
    Acts N Plain (handleGetLog parsedData socket) := by
  have log : ∀ content, Acts N Plain (sendResponse socket (build (str "LOG") [content])) :=
    fun content => ⟨show str "LOG;" ≠ str "MESS" by decide, fun _ _ => trivial⟩
  simp only [handleGetLog, perform_bind, under_act, Action.Permitted, true_and]
  intro content _
  cases content with
  | none => exact sendError_names _ _
  | some content =>
    simp only [under_ite]
    exact ⟨fun _ => (log _).bind fun _ => trivial, fun _ => log _⟩

theorem handleMessage_names (raw : Str) (socket : Fd) :
    Acts N Plain (handleMessage raw socket) := by
  have handled := handleMessage_handled raw socket
  generalize handleMessage raw socket = program at handled ⊢
  cases handled with
  | invalid => trivial
  | unknown => exact ⟨plain_error _, fun _ _ => trivial⟩
  | connect => exact handleConnect_names _ socket
  | disconnect => exact handleDisconnect_names _ socket
  | sendMessage => exact handleSendMessage_names _ socket
  | ping =>
    have pong : Plain (str "PONG\n") := show str "PONG" ≠ str "MESS" by decide
    exact ⟨pong, fun _ _ => trivial⟩
  | pong => exact handlePong_names _ socket
  | listUsers =>
    have users : ∀ clients, Plain (build (str "USERS") [joinUsers clients]) :=
      fun clients => show str "USER" ≠ str "MESS" by decide
    exact ⟨trivial, fun clients _ => ⟨users clients, fun _ _ => trivial⟩⟩
  | getLog => exact handleGetLog_names _ socket

theorem handleReceiveFailure_names (socket : Fd) :
    Acts N spoken (handleReceiveFailure socket) := by
  refine ⟨trivial, fun username _ => ?_⟩
  change (if username ≠ [] then handleDisconnect [] socket else .done ()).Under _ _
  split
  · exact handleDisconnect_names [] socket
  · trivial

end CommandHandler

theorem runOnce_names : Acts N (Task.dispatch.Speaks N) Dispatcher.runOnce := by
  refine ⟨trivial, fun next senders => ?_⟩
  cases next with
  | none => trivial
  | some message =>
    have notice : Plain (Dispatcher.undeliverable message) := plain_error _
    have sender : N message.sender := senders message rfl
    change (Dispatcher.deliver message).Under _ _
    simp only [Dispatcher.deliver, perform_bind, pure_eq, under_act, under_ite, under_done,
      Action.Permitted, true_and]
    intro recipient _
    refine ⟨fun _ number _ => ⟨fun _ => ⟨.inl notice, fun _ _ => trivial⟩, fun _ => trivial⟩, ?_⟩
    exact fun _ => ⟨.inr ⟨message, sender, rfl⟩, fun _ _ =>
      ⟨fun _ => ⟨trivial, fun _ _ => trivial⟩, fun _ => trivial⟩⟩

namespace AdminCommandHandler

/-- Only a user who was found online is banned. -/
theorem banUser_names {line : Str} (username : Str) :
    Acts N ((Task.admin line).Speaks N) (banUser username) := by
  simp only [banUser, disconnectUser, perform_bind, act_bind, pure_eq]
  refine ⟨trivial, fun socket online => ?_⟩
  by_cases offline : socket ≤ 0
  · simp only [offline, if_true, done_bind, Bool.false_eq_true, if_false]
    trivial
  · simp only [offline, if_false, act_bind, done_bind, if_true]
    exact ⟨.inl (plain_error _), fun _ _ => ⟨trivial, fun _ _ => ⟨trivial, fun _ _ =>
      ⟨online (Int.not_le.mp offline), fun _ _ => trivial⟩⟩⟩⟩

theorem commandLine_names (line : Str) :
    Acts N ((Task.admin line).Speaks N) (commandLine line) := by
  rcases commandLine_bans line with spares | ⟨username, _, same⟩ | ⟨username, _, same⟩
  · refine Only.under ((spares.and (commandLine_ofConsole line)).weaken fun action both => ?_)
    cases action with
    | registerClient | queueMessage => exact both.2.elim
    | banlistAdd => exact both.1.elim
    | send socket message =>
      rcases both.2 with announced | ⟨reason, rfl⟩
      · exact .inr announced
      · exact .inl (plain_error reason)
    | _ => trivial
  · exact same ▸ banUser_names username
  · rw [same]
    exact ⟨trivial, fun _ _ => trivial⟩

end AdminCommandHandler

theorem Task.program_names (task : Task) : Acts N (task.Speaks N) task.program := by
  cases task with
  | dispatch => exact runOnce_names
  | admin line => exact AdminCommandHandler.commandLine_names line
  | heartbeat => exact ⟨trivial, fun _ _ => trivial⟩
  | checkTimeouts =>
    refine ⟨trivial, fun names _ => Only.under (disconnectTimedOut_only (fun _ => trivial) ?_ names)⟩
    intro socket
    simp only [handleDisconnect, perform_bind, pure_eq, only_act, only_ite, only_done,
      only_perform, Action.Permitted, implies_true, and_self]

/-- Registered names and senders are as `N` says, and the settings within their bounds. -/
structure World.Named (N : Str → Prop) (w : World) : Prop where
  config : w.runtimeConfig.WellFormed
  names : ∀ {username socket}, w.table.handleOf username = some socket → N username
  senders : ∀ message ∈ w.queue, N message.sender

/-- A name is registered only if it is as `N` says. -/
def Action.Registers (N : Str → Prop) : ∀ {β : Type}, Action β → Prop
  | _, .registerClient username _ => N username
  | _, _ => True

variable {w v : World}

theorem exec_yields (named : w.Named N) (env : Env) {β : Type} (action : Action β) :
    action.Yields N (exec env action w).1 := by
  cases action with
  | getUsernameBySocket socket =>
    intro found
    rcases getUsernameBySocket_cases env socket w with stored | ⟨empty, _⟩
    · exact named.names stored
    · exact absurd empty found
  | getUserSocket username => exact fun online => named.names (handleOf_of_getUserSocket online)
  | getAllClients =>
    intro entry copied
    obtain ⟨key, _, found⟩ := List.mem_filterMap.mp copied
    obtain ⟨info, present, rfl⟩ := Option.map_eq_some_iff.mp found
    exact named.names (handleOf_eq_some.mpr ⟨info, present, rfl⟩)
  | runtimeConfig => exact named.config
  | popMessage => exact fun message next => named.senders message (List.mem_of_head? next)
  | _ => trivial

/-- The settings stay, and names and messages only become fewer. -/
theorem World.Named.shrink (named : w.Named N) (config : v.runtimeConfig = w.runtimeConfig)
    (names : ∀ {username socket}, v.table.handleOf username = some socket →
      w.table.handleOf username = some socket)
    (queue : ∀ message ∈ v.queue, message ∈ w.queue) : v.Named N where
  config := config ▸ named.config
  names := fun stored => named.names (names stored)
  senders := fun message member => named.senders message (queue message member)

theorem queue_of_dispatcher (same : v.server.dispatcher = w.server.dispatcher) :
    ∀ message ∈ v.queue, message ∈ w.queue := by
  intro message member
  rwa [World.queue, same] at member

/-- Under every policy a message that is in the queue afterwards was there before or is the new one. -/
theorem mem_queueMessage {message other : Message} {w : World}
    (member : other ∈ (w.queueMessage message).2.queue) : other ∈ w.queue ∨ other = message := by
  simp only [World.queueMessage, World.mapServer, World.queue, Dispatcher.queueMessage] at member ⊢
  split at member
  · split at member
    · exact .inl member
    · rcases List.mem_append.mp member with old | new
      · exact .inl (List.mem_of_mem_tail old)
      · exact .inr (List.mem_singleton.mp new)
    · exact .inl member
  · exact (List.mem_append.mp member).imp_right List.mem_singleton.mp

theorem exec_named (env : Env) {β : Type} {action : Action β} (named : w.Named N)
    (permitted : action.Permitted N spoken) (registers : action.Registers N) :
    (exec env action w).2.Named N := by
  cases action with
  | registerClient username socket =>
    refine ⟨named.config, fun {name number} stored => ?_, named.senders⟩
    have stored : (w.registerClient env username socket).table.handleOf name = some number := stored
    rw [World.handleOf_registerClient] at stored
    split_ifs at stored with same
    · exact same ▸ registers
    · exact named.names stored
  | queueMessage message =>
    refine ⟨named.config, named.names, fun other member => ?_⟩
    rcases mem_queueMessage member with old | rfl
    · exact named.senders other old
    · exact permitted
  | popMessage =>
    exact named.shrink rfl (fun stored => stored) fun message member => List.mem_of_mem_tail member
  | setConfig key value =>
    exact ⟨RuntimeConfig.set_wellFormed named.config key value, named.names, named.senders⟩
  | resetConfig => exact ⟨RuntimeConfig.reset_wellFormed _, named.names, named.senders⟩
  | _ =>
    exact named.shrink (exec_runtimeConfig env w rfl) (exec_handleOf env rfl)
      (queue_of_dispatcher (exec_dispatcher env w rfl))

namespace Threads

/-- A program that a task has left acts and speaks as the task may. -/
structure Remains (N : Str → Prop) (task : Task) (program : Handler) : Prop where
  continues : task.program.Continues program
  names : Acts N (task.Speaks N) program

/-- Every program that is running acts only on names that are as `N` says, and
the tasks are what these have left. -/
structure Named (N : Str → Prop) (started : Task → Prop) (s : Threads) : Prop where
  world : s.world.Named N
  workers : ∀ {i : ConnId} {worker : Worker}, s.workers[i]? = some worker →
    Acts N Plain worker.rest
  tasks : ∀ program ∈ s.tasks, ∃ task, started task ∧ Remains N task program

variable {s after : Threads} {started : Task → Prop}

theorem Named.setActivity {i : ConnId} {old : Worker} {activity : Activity}
    (named : s.Named N started) (present : s.workers[i]? = some old)
    (names : Acts N Plain (Worker.rest ⟨old.socket, activity⟩)) :
    (s.setActivity i activity).Named N started where
  world := named.world
  workers := by
    intro j worker found
    rcases workers_cases present found with ⟨_, rfl⟩ | ⟨_, other⟩
    · exact names
    · exact named.workers other
  tasks := named.tasks

/-- Whatever is registered in this step is as `N` says. -/
def Registers (N : Str → Prop) (s : Threads) (label : Env × Move) : Prop :=
  ∀ username ∈ registering (s.advanced label.2), N username

/-- Whatever task is started in this step is one of these. -/
def Starts (started : Task → Prop) (label : Env × Move) : Prop :=
  ∀ task, label.2 = .start task → started task

theorem registers_of_advanced {label : Env × Move} {β : Type} {action : Action β}
    {next : β → Handler} (advances : s.advanced label.2 = .act action next)
    (registers : Registers N s label) : action.Registers N := by
  cases action with
  | registerClient username socket => exact registers username (by rw [advances]; rfl)
  | _ => trivial

theorem step_named {label : Env × Move} (named : s.Named N started)
    (registers : Registers N s label) (starts : Starts started label)
    (stepped : step s label = some after) : after.Named N started := by
  obtain ⟨env, move⟩ := label
  obtain ⟨_, stepped⟩ := step_cases stepped
  cases stepped with
  | @accept socket =>
    refine ⟨named.world.shrink rfl (fun stored => stored) fun _ member => member, ?_, named.tasks⟩
    intro j worker found
    rcases workers_append found with old | ⟨_, rfl⟩
    · exact named.workers old
    · trivial
  | receive present => exact named.setActivity present (handleMessage_names _ _)
  | receiveFailure present => exact named.setActivity present (handleReceiveFailure_names _)
  | perform present =>
    have advances := advanced_of_worker present
    have names : Acts N Plain (Prog.act _ _) := named.workers present
    have world := exec_named env named.world names.1 (registers_of_advanced advances registers)
    exact Named.setActivity ⟨world, named.workers, named.tasks⟩ present
      (names.2 _ (exec_yields named.world env _))
  | @finish i socket last present =>
    apply named.setActivity present
    cases last <;> trivial
  | @start task =>
    refine ⟨named.world, named.workers, fun program member => ?_⟩
    rcases List.mem_append.mp member with old | new
    · exact named.tasks program old
    · rw [List.mem_singleton.mp new]
      exact ⟨task, starts task rfl, .refl, task.program_names⟩
  | performTask present =>
    have advances := advanced_of_task present
    obtain ⟨task, begun, continues, names⟩ := named.tasks _ (List.mem_of_getElem? present)
    have world := exec_named env named.world names.1 (registers_of_advanced advances registers)
    refine ⟨world, named.workers, fun program member => ?_⟩
    rcases List.mem_or_eq_of_mem_set member with old | rfl
    · exact named.tasks program old
    · exact ⟨task, begun, continues.next _, names.2 _ (exec_yields named.world env _)⟩
  | finishTask =>
    exact ⟨named.world, named.workers, fun program member =>
      named.tasks program (List.mem_of_mem_eraseIdx member)⟩

theorem initial_named (N : Str → Prop) (started : Task → Prop) (banlist : Option Str) :
    (initial banlist).Named N started where
  world :=
    { config := RuntimeConfig.initial_wellFormed
      names := fun stored => by simp [World.table, initial, System.initial] at stored
      senders := fun message member => absurd member List.not_mem_nil }
  workers := fun found => by simp [initial] at found
  tasks := fun _ member => absurd member List.not_mem_nil

/-- The action that a move performs is permitted to whoever performs it. -/
theorem Named.permitted (named : s.Named N started) {move : Move} {β : Type} {action : Action β}
    {next : β → Handler} (advances : s.advanced move = .act action next) :
    ∃ spoken, action.Permitted N spoken := by
  rcases performer advances with ⟨i, worker, _, found, rest⟩ | ⟨k, _, found⟩
  · have names := named.workers found
    rw [rest] at names
    exact ⟨_, names.1⟩
  · obtain ⟨task, _, _, names⟩ := named.tasks _ (List.mem_of_getElem? found)
    exact ⟨_, names.1⟩

/-- Valid names are the only ones that are ever registered. -/
theorem Named.registers (named : s.Named N started) (label : Env × Move) :
    Registers Username s label := by
  intro username registering
  cases advances : s.advanced label.2 with
  | done => simp [advances, SocketMessaging.registering] at registering
  | act action next =>
    obtain ⟨spoken, permitted⟩ := named.permitted advances
    rw [advances] at registering
    cases action with
    | registerClient name socket => exact Option.some.inj registering ▸ permitted
    | _ => cases registering

/-- Any task may be started. -/
def AnyTask (_ : Task) : Prop := True

theorem step_valid {label : Env × Move} (named : s.Named Username AnyTask)
    (stepped : step s label = some after) : after.Named Username AnyTask :=
  step_named named (named.registers label) (fun _ _ => trivial) stepped

end Threads

end Programs
end SocketMessaging
