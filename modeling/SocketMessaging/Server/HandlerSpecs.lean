import SocketMessaging.Server.Registry

/-! What the handlers of client commands do to a world when they run without
interruption, one equation for each handler. -/
namespace SocketMessaging
open Prog Utils MessageParser

/-- The world after `NetworkStream(socket).send(message)` with the result ignored. -/
def World.reply (env : Env) (socket : Fd) (message : Str) (w : World) : World :=
  (w.send env socket message).2

@[simp] theorem World.table_reply (env : Env) (socket : Fd) (message : Str) (w : World) :
    (w.reply env socket message).table = w.table := w.table_send env socket message

@[simp] theorem World.server_reply (env : Env) (socket : Fd) (message : Str) (w : World) :
    (w.reply env socket message).server = w.server := w.server_send env socket message

/-- What has been observed between two worlds of a run. -/
def World.since (before after : World) : List Event := after.os.log.drop before.os.log.length

theorem World.since_eq {before after : World} {events : List Event}
    (logged : after.os.log = before.os.log ++ events) : before.since after = events := by
  rw [World.since, logged, List.drop_left]

theorem World.log_reply {socket : Fd} (connected : 0 ≤ socket) (env : Env) (message : Str)
    (w : World) : (w.reply env socket message).os.log = w.os.log ++
      [.send socket (w.os.user socket) message (w.transferred env socket message)] := by
  simp only [World.reply, World.send, Int.not_lt.mpr connected, if_false]
  rfl

/-- Either some entry stores the socket, and the lookup returns its name, or
none does, and the lookup returns the empty string. -/
theorem getUsernameBySocket_cases (env : Env) (socket : Fd) (w : World) :
    w.table.handleOf (w.server.getUsernameBySocket env socket) = some socket ∨
    (w.server.getUsernameBySocket env socket = [] ∧
      ∀ username, w.table.handleOf username ≠ some socket) := by
  unfold Server.getUsernameBySocket
  cases found : (env.visit w.server.clients).find? fun entry => entry.2.socket = socket with
  | some entry =>
    left
    have present := (env.mem_visit _ _ _).mp (List.mem_of_find?_eq_some found)
    have socketEq : entry.2.socket = socket := by simpa using List.find?_some found
    simp only [World.table, present, Option.map_some, socketEq]
  | none =>
    refine Or.inr ⟨rfl, fun username named => ?_⟩
    obtain ⟨info, present, socketEq⟩ := Option.map_eq_some_iff.mp named
    have absent := List.find?_eq_none.mp found (username, info)
      ((env.mem_visit _ _ _).mpr present)
    simp [socketEq] at absent

theorem handleOf_eq_some {w : World} {username : Str} {socket : Fd} :
    w.table.handleOf username = some socket ↔
      ∃ info, w.server.clients.lookup username = some info ∧ info.socket = socket :=
  Option.map_eq_some_iff

theorem getUserSocket_eq (w : World) (username : Str) :
    w.server.getUserSocket username = (w.table.handleOf username).getD (-1) := by
  simp only [Server.getUserSocket, World.table]
  cases w.server.clients.lookup username <;> rfl

/-- A positive result of `getUserSocket` is the stored socket. -/
theorem handleOf_of_getUserSocket {w : World} {username : Str}
    (positive : 0 < w.server.getUserSocket username) :
    w.table.handleOf username = some (w.server.getUserSocket username) := by
  rw [getUserSocket_eq] at positive ⊢
  cases named : w.table.handleOf username with
  | none => simp [named] at positive
  | some socket => rfl

theorem getUserSocket_of_lookup {server : Server} {username : Str} {info : ClientInfo}
    (present : server.clients.lookup username = some info) :
    server.getUserSocket username = info.socket := by
  simp only [Server.getUserSocket, present]

theorem isUsernameTaken_eq (w : World) (username : Str) :
    w.server.isUsernameTaken username = (w.table.handleOf username).isSome := by
  simp [Server.isUsernameTaken, World.table]

namespace CommandHandler

theorem sendResponse_run (env : Env) (socket : Fd) (message : Str) (w : World) :
    (sendResponse socket message).run (exec env) w = ((), w.reply env socket message) := rfl

theorem sendError_run (env : Env) (socket : Fd) (error : Str) (w : World) :
    (sendError socket error).run (exec env) w =
      ((), w.reply env socket (build (str "ERROR") [error])) := rfl

theorem sendOK_run (env : Env) (socket : Fd) {message : Str} (nonempty : message ≠ []) (w : World) :
    (sendOK socket message).run (exec env) w =
      ((), w.reply env socket (build (str "OK") [message])) := by
  simp only [sendOK, nonempty, if_false]
  rfl

theorem handleConnect_run (env : Env) (command name : Str) (rest : List Str) (socket : Fd)
    (w : World) :
    ((handleConnect (command :: name :: rest) socket).run (exec env) w).2 =
      let username := sanitize name
      if !isValidUsername w.runtimeConfig username then
        w.reply env socket (build (str "ERROR") [str "Invalid username"])
      else if w.server.isBanned username then
        (w.reply env socket (build (str "ERROR") [str "You are banned from this server"])).close socket
      else if w.server.isUsernameTaken username then
        w.reply env socket (build (str "ERROR") [str "Username already exists"])
      else (w.registerClient env username socket).reply env socket
        (build (str "OK") [str "Connected as " ++ username]) := by
  have enough : ¬ (command :: name :: rest).length < 2 := by simp
  simp only [handleConnect, enough, if_false, nth, List.getElem?_cons_succ, List.getElem?_cons_zero,
    done_bind, perform_bind, run_runtimeConfig, run_isBanned, run_isUsernameTaken,
    run_registerClient, run_ite, run_bind, sendError_run, sendResponse_run, pure_eq, run_done]
  split_ifs <;> rfl

theorem handleConnect_short {parsedData : List Str} (short : parsedData.length < 2) (socket : Fd) :
    handleConnect parsedData socket = .done () := by
  simp only [handleConnect, short, if_true, pure_eq]

theorem handleDisconnect_run (env : Env) (parsedData : List Str) (socket : Fd) (w : World) :
    ((handleDisconnect parsedData socket).run (exec env) w).2 =
      let username := w.server.getUsernameBySocket env socket
      if username = [] then w else (w.unregisterClient username).close socket := by
  simp only [handleDisconnect, perform_bind, run_getUsernameBySocket, run_unregisterClient, run_ite,
    pure_eq, run_done]
  split_ifs <;> rfl

theorem handleReceiveFailure_run (env : Env) (socket : Fd) (w : World) :
    ((handleReceiveFailure socket).run (exec env) w).2 =
      ((handleDisconnect [] socket).run (exec env) w).2 := by
  simp only [handleReceiveFailure, perform_bind, run_getUsernameBySocket]
  by_cases empty : w.server.getUsernameBySocket env socket = []
  · simp only [empty, ne_eq, not_true_eq_false, if_false, pure_eq, run_done, handleDisconnect_run,
      if_true]
  · simp only [empty, ne_eq, not_false_eq_true, if_true]

theorem nth_of_lt {items : List Str} {index : Nat} (inside : index < items.length) :
    nth items index = .done items[index] := by
  simp only [nth, List.getElem?_eq_getElem inside]

theorem queueBroadcast_quiet (message : Message) (clients : List (Str × Fd)) :
    (queueBroadcast message clients).Only Action.Quiet := by
  induction clients with
  | nil => trivial
  | cons entry clients ih =>
    obtain ⟨username, socket⟩ := entry
    unfold queueBroadcast
    split
    · exact ⟨trivial, fun _ => ih⟩
    · exact ih

theorem sendError_inert (socket : Fd) (error : Str) : (sendError socket error).Only Action.Inert :=
  ⟨trivial, fun _ => trivial⟩

theorem sendOK_inert (socket : Fd) (message : Str) : (sendOK socket message).Only Action.Inert :=
  ⟨trivial, fun _ => trivial⟩

theorem handleSendMessage_quiet (parsedData : List Str) (socket : Fd) :
    (handleSendMessage parsedData socket).Only Action.Quiet := by
  have error := fun text => quiet_of_inert (sendError_inert socket text)
  have ok := fun text => quiet_of_inert (sendOK_inert socket text)
  by_cases short : parsedData.length < 4
  · simp only [handleSendMessage, short, if_true]
    exact (error _).bind fun _ => trivial
  · simp only [handleSendMessage, short, if_false, nth_of_lt (show 1 < parsedData.length by omega),
      nth_of_lt (show 2 < parsedData.length by omega),
      nth_of_lt (show 3 < parsedData.length by omega), perform_bind, done_bind, pure_eq, only_act,
      only_ite, Action.Quiet, true_and]
    intro sender
    refine ⟨fun _ => (error _).bind fun _ => trivial, fun _ _ clock config => ?_⟩
    refine ⟨fun _ => (error _).bind fun _ => trivial, fun _ => ?_⟩
    refine ⟨fun _ => (error _).bind fun _ => trivial, fun _ => ?_⟩
    constructor
    · intro _ clients
      exact (queueBroadcast_quiet _ _).bind fun _ => (ok _).bind fun _ => trivial
    · intro _ recipientSocket
      refine ⟨fun _ => (error _).bind fun _ => trivial, fun _ queued => ?_⟩
      exact ⟨fun _ => ok _, fun _ => error _⟩

theorem handlePong_inert (parsedData : List Str) (socket : Fd) :
    (handlePong parsedData socket).Only Action.Inert := by
  simp only [handlePong, perform_bind, pure_eq, only_act, only_ite, only_done, only_perform,
    Action.Inert, implies_true, and_self]

theorem handleGetLog_inert (parsedData : List Str) (socket : Fd) :
    (handleGetLog parsedData socket).Only Action.Inert := by
  simp only [handleGetLog, perform_bind, only_act, Action.Inert, true_and]
  intro log
  cases log with
  | none => exact sendError_inert _ _
  | some content =>
    simp only [only_ite]
    exact ⟨fun _ => ⟨trivial, fun _ => trivial⟩, fun _ => ⟨trivial, fun _ => trivial⟩⟩

/-- The username for which a frame asks, if it is a CONNECT with an argument. -/
def connectName (raw : Str) : Option Str :=
  let parsed := parse raw
  if parsed.isValid ∧ parsed.command = str "CONNECT" then parsed.arguments.head?.map sanitize else none

/-- A CONNECT that the server does not merely answer: it registers the name or
it closes the connection because the name is banned. -/
def Effective (w : World) (username : Str) : Prop :=
  isValidUsername w.runtimeConfig username = true ∧
    (w.server.isBanned username = true ∨ w.server.isUsernameTaken username = false)

instance (w : World) (username : Str) : Decidable (Effective w username) :=
  inferInstanceAs (Decidable (_ ∧ _))

/-- What one message from a client can do to the sessions. -/
inductive MessageEffect (env : Env) (w : World) (raw : Str) (socket : Fd) :
    Sessions.Table Str Fd ConnId → Prop where
  | quiet : MessageEffect env w raw socket w.table
  | banned {username : Str} : connectName raw = some username →
      isValidUsername w.runtimeConfig username = true → w.server.isBanned username = true →
      MessageEffect env w raw socket (w.table.release socket)
  | registered {username : Str} : connectName raw = some username →
      isValidUsername w.runtimeConfig username = true → w.server.isBanned username = false →
      w.server.isUsernameTaken username = false →
      MessageEffect env w raw socket (w.table.register username socket)
  | loggedOut {username : Str} : w.table.handleOf username = some socket →
      MessageEffect env w raw socket (w.table.logout username socket)

theorem handleConnect_effect (env : Env) (w : World) {raw : Str} {command : Str}
    {arguments : List Str} (parsed : parse raw = ⟨command, arguments, true⟩)
    (connects : command = str "CONNECT") (socket : Fd) :
    MessageEffect env w raw socket
      ((handleConnect (command :: arguments) socket).run (exec env) w).2.table := by
  cases arguments with
  | nil =>
    rw [handleConnect_short (by simp)]
    exact .quiet
  | cons name rest =>
    have asks : connectName raw = some (sanitize name) := by simp [connectName, parsed, connects]
    rw [handleConnect_run]
    dsimp only
    split_ifs with invalid banned taken
    · rw [World.table_reply]
      exact .quiet
    · rw [World.table_close, World.table_reply]
      exact .banned asks (by simpa using invalid) banned
    · rw [World.table_reply]
      exact .quiet
    · rw [World.table_reply, World.table_registerClient]
      exact .registered asks (by simpa using invalid) (by simpa using banned) (by simpa using taken)

theorem handleDisconnect_effect (env : Env) (w : World) (raw : Str) (parsedData : List Str)
    (socket : Fd) : MessageEffect env w raw socket
      ((handleDisconnect parsedData socket).run (exec env) w).2.table := by
  rw [handleDisconnect_run]
  dsimp only
  split_ifs with absent
  · exact .quiet
  · rw [World.table_close, World.table_unregisterClient]
    rcases getUsernameBySocket_cases env socket w with named | ⟨empty, _⟩
    · exact .loggedOut named
    · exact absurd empty absent

/-- What a frame leads to: nothing, an error, or the handler of its command. -/
inductive Handled (raw : Str) (socket : Fd) : Handler → Prop where
  | invalid : (parse raw).isValid = false → Handled raw socket (.done ())
  | unknown {command : Str} {arguments : List Str} : parse raw = ⟨command, arguments, true⟩ →
      commands.lookup command = none →
      Handled raw socket (sendError socket (str "Unknown command: " ++ command))
  | connect {arguments : List Str} : parse raw = ⟨str "CONNECT", arguments, true⟩ →
      Handled raw socket (handleConnect (str "CONNECT" :: arguments) socket)
  | disconnect {arguments : List Str} : parse raw = ⟨str "DISCONNECT", arguments, true⟩ →
      Handled raw socket (handleDisconnect (str "DISCONNECT" :: arguments) socket)
  | sendMessage {arguments : List Str} : parse raw = ⟨str "SEND", arguments, true⟩ →
      Handled raw socket (handleSendMessage (str "SEND" :: arguments) socket)
  | ping {arguments : List Str} : parse raw = ⟨str "PING", arguments, true⟩ →
      Handled raw socket (handlePing (str "PING" :: arguments) socket)
  | pong {arguments : List Str} : parse raw = ⟨str "PONG", arguments, true⟩ →
      Handled raw socket (handlePong (str "PONG" :: arguments) socket)
  | listUsers {arguments : List Str} : parse raw = ⟨str "LIST_USERS", arguments, true⟩ →
      Handled raw socket (handleListUsers (str "LIST_USERS" :: arguments) socket)
  | getLog {arguments : List Str} : parse raw = ⟨str "GET_LOG", arguments, true⟩ →
      Handled raw socket (handleGetLog (str "GET_LOG" :: arguments) socket)

theorem handleMessage_handled (raw : Str) (socket : Fd) :
    Handled raw socket (handleMessage raw socket) := by
  unfold handleMessage
  cases shape : parse raw with
  | mk command arguments isValid =>
    cases isValid with
    | false => exact .invalid (by rw [shape])
    | true =>
      simp only [if_true, executeCommand]
      cases found : commands.lookup command with
      | none => exact .unknown shape found
      | some handler =>
        have listed : (command, handler) ∈ commands := mem_of_lookup found
        simp only [commands, List.mem_cons, Prod.mk.injEq, List.not_mem_nil, or_false] at listed
        rcases listed with ⟨rfl, rfl⟩ | ⟨rfl, rfl⟩ | ⟨rfl, rfl⟩ | ⟨rfl, rfl⟩ | ⟨rfl, rfl⟩ |
          ⟨rfl, rfl⟩ | ⟨rfl, rfl⟩
        · exact .connect shape
        · exact .disconnect shape
        · exact .sendMessage shape
        · exact .ping shape
        · exact .pong shape
        · exact .listUsers shape
        · exact .getLog shape

theorem handleMessage_effect (env : Env) (w : World) (raw : Str) (socket : Fd) :
    MessageEffect env w raw socket ((handleMessage raw socket).run (exec env) w).2.table := by
  have quiet : ∀ handler : Handler, handler.Only Action.Quiet →
      MessageEffect env w raw socket (handler.run (exec env) w).2.table := by
    intro handler only
    rw [run_quiet env only]
    exact .quiet
  have handled := handleMessage_handled raw socket
  generalize handleMessage raw socket = program at handled ⊢
  cases handled with
  | invalid => exact .quiet
  | unknown => exact quiet _ ⟨trivial, fun _ => trivial⟩
  | connect shape => exact handleConnect_effect env w shape rfl socket
  | disconnect => exact handleDisconnect_effect env w raw _ socket
  | sendMessage => exact quiet _ (handleSendMessage_quiet _ socket)
  | ping => exact quiet _ ⟨trivial, fun _ => trivial⟩
  | pong => exact quiet _ (quiet_of_inert (handlePong_inert _ socket))
  | listUsers => exact quiet _ ⟨trivial, fun _ => ⟨trivial, fun _ => trivial⟩⟩
  | getLog => exact quiet _ (quiet_of_inert (handleGetLog_inert _ socket))

/-- A frame that asks for a name is handled as that CONNECT. -/
theorem handleMessage_connect {raw username : Str} (asks : connectName raw = some username) :
    ∃ command name rest, sanitize name = username ∧
      ∀ socket, handleMessage raw socket = handleConnect (command :: name :: rest) socket := by
  simp only [connectName, Option.ite_none_right_eq_some, Option.map_eq_some_iff] at asks
  obtain ⟨⟨valid, connects⟩, name, first, sanitized⟩ := asks
  cases shape : parse raw with
  | mk command arguments isValid =>
    simp only [shape] at valid connects first
    obtain ⟨rest, rfl⟩ := List.head?_eq_some_iff.mp first
    refine ⟨command, name, rest, sanitized, fun socket => ?_⟩
    simp only [handleMessage, shape, valid, if_true, executeCommand, connects]
    rfl

theorem handleMessage_effective {raw username : Str} (env : Env) {w : World}
    (asks : connectName raw = some username) (effective : Effective w username) (socket : Fd) :
    ((handleMessage raw socket).run (exec env) w).2.table = w.table.release socket ∨
    w.server.isUsernameTaken username = false ∧
      ((handleMessage raw socket).run (exec env) w).2.table = w.table.register username socket := by
  obtain ⟨valid, refused⟩ := effective
  obtain ⟨command, name, rest, rfl, handled⟩ := handleMessage_connect asks
  rw [handled, handleConnect_run]
  simp only [valid, Bool.not_true, Bool.false_eq_true, if_false]
  by_cases banned : w.server.isBanned (sanitize name) = true
  · left
    rw [if_pos banned, World.table_close, World.table_reply]
  · have free := refused.resolve_left banned
    right
    rw [if_neg banned, free, if_neg Bool.false_ne_true, World.table_reply,
      World.table_registerClient]
    exact ⟨rfl, rfl⟩

end CommandHandler

namespace Dispatcher

theorem deliver_inert (message : Message) : (deliver message).Only Action.Inert := by
  simp only [deliver, perform_bind, pure_eq, only_act, only_ite, only_done, only_perform,
    Action.Inert, implies_true, and_self]

theorem runOnce_inert : runOnce.Only Action.Inert := by
  refine ⟨trivial, fun next => ?_⟩
  cases next with
  | none => trivial
  | some message => exact deliver_inert message

end Dispatcher

section Only
variable {P : ∀ {β : Type}, Action β → Prop}

theorem nth_only (outside : P .outOfRange) (items : List Str) (index : Nat) :
    (nth items index).Only P := by
  unfold nth
  split
  · trivial
  · exact ⟨outside, fun _ => trivial⟩

theorem disconnectTimedOut_only (looks : ∀ username, P (.getUserSocket username))
    (leaves : ∀ socket, (CommandHandler.handleDisconnect [] socket).Only P) (names : List Str) :
    (disconnectTimedOut names).Only P := by
  induction names with
  | nil => trivial
  | cons username names ih =>
    simp only [disconnectTimedOut, perform_bind, only_act, only_ite]
    exact ⟨looks username, fun socket => ⟨fun _ => (leaves socket).bind fun _ => ih, fun _ => ih⟩⟩

theorem AdminCommandHandler.sendToAll_only {message : Str} (sends : ∀ socket, P (.send socket message))
    (clients : List (Str × Fd)) : (sendToAll message clients).Only P := by
  induction clients with
  | nil => trivial
  | cons entry clients ih => exact ⟨sends entry.2, fun _ => ih⟩

end Only

namespace AdminCommandHandler

theorem cmdBroadcast_inert (args : List Str) : (cmdBroadcast args).Only Action.Inert :=
  ⟨trivial, fun clients => sendToAll_only (fun _ => trivial) clients⟩

theorem cmdSend_inert (args : List Str) : (cmdSend args).Only Action.Inert := by
  refine (nth_only trivial args 1).bind fun username => ?_
  simp only [perform_bind, pure_eq, only_act, only_ite, only_done, Action.Inert, implies_true,
    and_self]

theorem cmdSet_inert (args : List Str) : (cmdSet args).Only Action.Inert :=
  (nth_only trivial args 1).bind fun _ => (nth_only trivial args 2).bind fun _ =>
    ⟨trivial, fun _ => trivial⟩

theorem cmdUnban_inert (args : List Str) : (cmdUnban args).Only Action.Inert :=
  (nth_only trivial args 1).bind fun _ => ⟨trivial, fun _ => trivial⟩

theorem disconnectUser_run (env : Env) (username reason : Str) (w : World) :
    (disconnectUser username reason).run (exec env) w =
      let socket := w.server.getUserSocket username
      if socket ≤ 0 then (false, w)
      else (true, ((w.reply env socket (build (str "ERROR") [reason])).unregisterClient
        username).close socket) := by
  simp only [disconnectUser, perform_bind, run_getUserSocket, run_send, run_unregisterClient,
    run_close, run_ite, pure_eq, run_done]
  rfl

/-- The entries of the table; those that only print are taken together. -/
inductive Listed : Str → AdminCommand → Prop where
  | print {cmdName : Str} : Listed cmdName ⟨cmdPrint, 0⟩
  | broadcast : Listed (str "broadcast") ⟨cmdBroadcast, 1⟩
  | send : Listed (str "send") ⟨cmdSend, 2⟩
  | kick : Listed (str "kick") ⟨cmdKick, 1⟩
  | ban : Listed (str "ban") ⟨cmdBan, 1⟩
  | unban : Listed (str "unban") ⟨cmdUnban, 1⟩
  | set : Listed (str "set") ⟨cmdSet, 2⟩
  | reset : Listed (str "reset") ⟨cmdReset, 0⟩
  | stop : Listed (str "stop") ⟨cmdStop, 0⟩

theorem commands_listed : ∀ entry ∈ commands, Listed entry.1 entry.2 := by
  intro entry member
  simp only [commands, List.mem_cons, List.not_mem_nil, or_false] at member
  rcases member with rfl | rfl | rfl | rfl | rfl | rfl | rfl | rfl | rfl | rfl | rfl | rfl
  · exact .print
  · exact .broadcast
  · exact .send
  · exact .print
  · exact .kick
  · exact .ban
  · exact .unban
  · exact .print
  · exact .set
  · exact .print
  · exact .reset
  · exact .stop

/-- The words of a console line that is a command. -/
def words (line : Str) : List Str :=
  match line with
  | 47 :: text => Utils.split text (str " ")
  | _ => []

/-- Every line of the console is nothing, or one command of the table on its words. -/
theorem commandLine_words (line : Str) : commandLine line = .done () ∨
    ∃ cmdName cmd args, Listed cmdName cmd ∧ words line = cmdName :: args ∧
      cmd.minArgs ≤ args.length ∧ commandLine line = cmd.handler (cmdName :: args) := by
  unfold commandLine
  cases line with
  | nil => exact .inl rfl
  | cons c text =>
    dsimp only
    split_ifs with other
    · exact .inl rfl
    · obtain rfl : c = 47 := Decidable.not_not.mp other
      have read : words (47 :: text) = Utils.split text (str " ") := rfl
      rw [read]
      cases Utils.split text (str " ") with
      | nil => exact .inl rfl
      | cons cmdName args =>
        dsimp only
        cases found : commands.lookup cmdName with
        | none => exact .inl rfl
        | some cmd =>
          dsimp only
          split_ifs with few
          · exact .inl rfl
          · have listed := commands_listed _ (mem_of_lookup found)
            exact .inr ⟨cmdName, cmd, args, listed, rfl, Nat.not_lt.mp few, rfl⟩

theorem commandLine_cases (line : Str) : commandLine line = .done () ∨
    ∃ cmdName cmd args, Listed cmdName cmd ∧ commandLine line = cmd.handler args := by
  rcases commandLine_words line with nothing | ⟨cmdName, cmd, args, listed, _, _, same⟩
  · exact .inl nothing
  · exact .inr ⟨cmdName, cmd, cmdName :: args, listed, same⟩

end AdminCommandHandler

/-- The actions of the administrator's commands. Some of them announce something,
all others send errors only. -/
def Action.OfConsole (announces : Prop) : ∀ {β : Type}, Action β → Prop
  | _, .getAllClients => True
  | _, .getUserSocket _ => True
  | _, .send _ message =>
    (announces ∧ ∃ subject text, message = AdminCommandHandler.announcement subject text) ∨
      ∃ reason, message = build (str "ERROR") [reason]
  | _, .unregisterClient _ => True
  | _, .close _ => True
  | _, .banlistAdd _ => True
  | _, .banlistRemove _ => True
  | _, .setConfig _ _ => True
  | _, .resetConfig => True
  | _, .stop => True
  | _, .outOfRange => True
  | _, _ => False

namespace AdminCommandHandler

/-- A `/broadcast` or a `/send`. -/
def Announces (line : Str) : Prop := ∃ cmdName ∈ [str "broadcast", str "send"],
  (words line).head? = some cmdName

theorem disconnectUser_ofConsole (announces : Prop) (username reason : Str) :
    (disconnectUser username reason).Only (Action.OfConsole announces) := by
  refine ⟨trivial, fun socket => ?_⟩
  change (if socket ≤ 0 then _ else _ : Prog Action Bool).Only _
  split
  · trivial
  · exact ⟨.inr ⟨reason, rfl⟩, fun _ => ⟨trivial, fun _ => ⟨trivial, fun _ => trivial⟩⟩⟩

theorem commandLine_ofConsole (line : Str) :
    (commandLine line).Only (Action.OfConsole (Announces line)) := by
  rcases commandLine_words line with nothing | ⟨cmdName, cmd, args, listed, read, _, same⟩
  · rw [nothing]
    trivial
  · rw [same]
    have head : (words line).head? = some cmdName := by rw [read, List.head?_cons]
    have name : ∀ items index, (nth items index).Only (Action.OfConsole (Announces line)) :=
      nth_only trivial
    have disconnect := disconnectUser_ofConsole (Announces line)
    cases listed with
    | print => trivial
    | broadcast => exact ⟨trivial, sendToAll_only fun _ => .inl ⟨⟨_, by simp, head⟩, _, _, rfl⟩⟩
    | send =>
      refine (name _ 1).bind fun username => ⟨trivial, fun socket => ?_⟩
      change (if socket ≤ 0 then _ else _ : Handler).Only _
      split
      · trivial
      · exact ⟨.inl ⟨⟨_, by simp, head⟩, _, _, rfl⟩, fun _ => trivial⟩
    | kick => exact (name _ 1).bind fun _ => (disconnect _ _).bind fun _ => trivial
    | ban =>
      refine (name _ 1).bind fun _ => (disconnect _ _).bind fun found => ?_
      split
      · exact ⟨trivial, fun _ => trivial⟩
      · trivial
    | unban => exact (name _ 1).bind fun _ => ⟨trivial, fun _ => trivial⟩
    | set => exact (name _ 1).bind fun _ => (name _ 2).bind fun _ => ⟨trivial, fun _ => trivial⟩
    | reset | stop => exact ⟨trivial, fun _ => trivial⟩

end AdminCommandHandler
end SocketMessaging
