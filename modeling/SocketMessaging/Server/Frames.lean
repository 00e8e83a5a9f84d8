import SocketMessaging.Server.Delivery
import SocketMessaging.Server.Queueing

/-! The size of the frames that a client's message makes the server write. The
maximum is checked when a frame is received but not when one is sent, so replies
that echo a field and relayed messages can outgrow it. -/
namespace SocketMessaging
open Prog Utils MessageParser NetworkStream CommandHandler Dispatcher

def Event.frame : Event → Option Str
  | .send _ _ message _ => some message
  | _ => none

namespace World

/-- The messages handed to `::send` between two worlds. -/
def frames (before after : World) : List Str := (before.since after).filterMap Event.frame

theorem frames_of_log {w v : World} {events : List Event} (logged : v.os.log = w.os.log ++ events) :
    w.frames v = events.filterMap Event.frame := by
  rw [frames, since_eq logged]

theorem frames_reply {w before : World} {socket : Fd} (connected : 0 ≤ socket)
    {events : List Event} (same : w.os.log = before.os.log ++ events) (env : Env) (message : Str) :
    before.frames (w.reply env socket message) = events.filterMap Event.frame ++ [message] := by
  have logged := w.log_reply connected env message
  rw [same, List.append_assoc] at logged
  rw [frames_of_log logged, List.filterMap_append]
  rfl

end World

/-- A built message is admissible as long as it is not too long. -/
theorem admissible_build {command : Str} {args : List Str} :
    Admissible (build command args) ↔
      command.length + (args.map fun arg => arg.length + 1).sum + 1 ≤ Constants.maxMessageSize := by
  rw [Admissible, build_length]
  exact and_iff_right (Nat.le_add_left 1 _)

theorem deliver_frames (env : Env) (message : Message) (w : World) :
    ∀ frame ∈ w.frames ((deliver message).run (exec env) w).2,
      frame = formattedMessage message ∨ frame = undeliverable message := by
  intro frame member
  rw [World.frames_of_log (deliver_log env message w), writes] at member
  dsimp only at member
  split_ifs at member
  · exact .inl (List.mem_singleton.mp member)
  · exact .inr (List.mem_singleton.mp member)
  · exact absurd member List.not_mem_nil

theorem admissible_undeliverable {message : Message} (sound : message.Sound) :
    Admissible (undeliverable message) := by
  have short := sound.recipient.bounded
  rw [undeliverable, admissible_build]
  simp only [List.map_cons, List.map_nil, List.sum_cons, List.sum_nil, List.length_append]
  have prefixed : (str "Message to '").length = 12 := rfl
  have suffixed : (str "' could not be delivered: user disconnected").length = 43 := by decide
  have command : (str "ERROR").length = 5 := rfl
  simp only [prefixed, suffixed, command, Constants.maxMessageSize]
  omega

/-- The length of the texts that a relayed message carries. -/
def Message.payload (message : Message) : Nat :=
  message.sender.length + message.subject.length + message.body.length +
    (timestampToUnixString message.timestamp).length

theorem admissible_formattedMessage {message : Message} :
    Admissible (formattedMessage message) ↔ message.payload + 12 ≤ Constants.maxMessageSize := by
  rw [formattedMessage, admissible_build, Message.payload]
  have command : (str "MESSAGE").length = 7 := rfl
  simp only [List.map_cons, List.map_nil, List.sum_cons, List.sum_nil, command]
  omega

namespace World
variable {w v : World}

/-- All frames that a change makes the server write, at once and when it later
delivers the messages that were queued, pass the check of a receiver. -/
structure Harmless (w v : World) : Prop where
  answers : ∀ frame ∈ w.frames v, Admissible frame
  deliveries : ∀ message ∈ v.queue.drop w.queue.length, ∀ (env : Env) (later : World),
    ∀ frame ∈ later.frames ((deliver message).run (exec env) later).2, Admissible frame

/-- A later world in which the recipient is connected. -/
theorem formattedMessage_mem_frames (env : Env) (message : Message) (w : World) :
    ∃ later : World, formattedMessage message ∈
      later.frames ((deliver message).run (exec env) later).2 := by
  refine ⟨w.registerClient env message.recipient 1, ?_⟩
  have present : (w.registerClient env message.recipient 1).server.clients.lookup
      message.recipient = some ⟨1, env.steadyClock, false⟩ := AList.lookup_insert _
  have found := getUserSocket_of_lookup present
  rw [frames_of_log (deliver_log env message _), writes]
  dsimp only
  rw [found, if_pos Int.one_pos]
  exact List.mem_singleton_self _

theorem harmless_of_unqueued (same : v.queue = w.queue) :
    w.Harmless v ↔ ∀ frame ∈ w.frames v, Admissible frame := by
  have none : v.queue.drop w.queue.length = [] := by rw [same, List.drop_length]
  constructor
  · exact Harmless.answers
  · exact fun answers => ⟨answers, fun message member => by simp [none] at member⟩

theorem harmless_of_log {events : List Event} (logged : v.os.log = w.os.log ++ events)
    (same : v.queue = w.queue) :
    w.Harmless v ↔ ∀ frame ∈ events.filterMap Event.frame, Admissible frame := by
  rw [harmless_of_unqueued same, frames_of_log logged]

theorem harmless_of_silent (same : v.queue = w.queue) (logged : v.os.log = w.os.log) :
    w.Harmless v := by
  rw [harmless_of_unqueued same, frames_of_log (logged.trans (List.append_nil _).symm)]
  exact fun frame member => absurd member List.not_mem_nil

theorem harmless_of_reply {u : World} {socket : Fd} {message : Str} {env : Env}
    (connected : 0 ≤ socket) (queue : u.queue = w.queue) (log : u.os.log = w.os.log) :
    w.Harmless (u.reply env socket message) ↔ Admissible message := by
  have frames := frames_reply connected (log.trans (List.append_nil _).symm) env message
  rw [harmless_of_unqueued ((queue_reply ..).trans queue), frames]
  simp only [List.filterMap_nil, List.nil_append, List.mem_singleton, forall_eq]

/-- Of a relayed message only the MESSAGE frame can be too long. -/
theorem harmless_of_relay {u : World} {socket : Fd} {answer : Str} {env : Env}
    {queued : List Message} (connected : 0 ≤ socket) (log : u.os.log = w.os.log)
    (short : Admissible answer) (sound : ∀ message ∈ queued, message.Sound) :
    w.Harmless ((u.setQueue (w.queue ++ queued)).reply env socket answer) ↔
      ∀ message ∈ queued, message.payload + 12 ≤ Constants.maxMessageSize := by
  have same : (u.setQueue (w.queue ++ queued)).os.log = w.os.log ++ [] :=
    log.trans (List.append_nil _).symm
  have frames := frames_reply connected same env answer
  have new : ((u.setQueue (w.queue ++ queued)).reply env socket answer).queue.drop
      w.queue.length = queued := by
    rw [queue_reply, queue_setQueue, List.drop_left]
  constructor
  · intro harmless message member
    obtain ⟨later, written⟩ := formattedMessage_mem_frames env message w
    exact admissible_formattedMessage.mp
      (harmless.deliveries message (new.symm ▸ member) env later _ written)
  · intro fits
    constructor
    · intro frame member
      rw [frames] at member
      exact List.mem_singleton.mp member ▸ short
    · intro message member env' later frame written
      have member := new ▸ member
      rcases deliver_frames env' message later frame written with rfl | rfl
      · exact admissible_formattedMessage.mpr (fits message member)
      · exact admissible_undeliverable (sound message member)

end World

/-- A SEND whose fields pass the checks can be answered and relayed. -/
def SendFits (w : World) (message : Message) : Prop :=
  if message.recipient = str "all" then
    w.others message.sender ≠ [] → 0 < w.freePlaces →
      message.payload + 12 ≤ Constants.maxMessageSize
  else if w.server.getUserSocket message.recipient ≤ 0 then
    message.recipient.length + 43 ≤ Constants.maxMessageSize
  else w.queue.length < w.capacity → message.payload + 12 ≤ Constants.maxMessageSize

/-- What a client's message asks the server to write is not too long. -/
structure Fits (env : Env) (w : World) (raw : Str) (socket : Fd) : Prop where
  unknown : ∀ command arguments, parse raw = ⟨command, arguments, true⟩ →
    commands.lookup command = none → command.length + 24 ≤ Constants.maxMessageSize
  send : ∀ message, WellFormedSend env w raw socket message → SendFits w message
  users : ∀ arguments, parse raw = ⟨str "LIST_USERS", arguments, true⟩ →
    (w.server.clients.keys.map fun name => name.length + 1).sum + 6 ≤ Constants.maxMessageSize
  log : ∀ arguments content, parse raw = ⟨str "GET_LOG", arguments, true⟩ →
    env.serverLog = some content →
    (((fileLines content).drop ((fileLines content).length - 50)).map fun line =>
      line.length + 1).sum + 5 ≤ Constants.maxMessageSize

namespace CommandHandler
variable {env : Env} {w : World} {raw : Str} {socket : Fd} {message : Message}

theorem WellFormedSend.harmless_iff (sound : w.Sound) (connected : 0 ≤ socket)
    (request : WellFormedSend env w raw socket message) :
    w.Harmless ((handleMessage raw socket).run (exec env) w).2 ↔ SendFits w message := by
  have reject := sound.rejecting
  have queue : w.countReceived.queue = w.queue := rfl
  have log : w.countReceived.os.log = w.os.log := rfl
  unfold SendFits
  by_cases everyone : message.recipient = str "all"
  · rw [if_pos everyone, request.run reject]
    dsimp only
    rw [if_pos everyone, BoundedQueue.pushAll_eq]
    have walked := recipients_perm env message.sender w
    have each : ∀ queued ∈ (addressed message (recipients message.sender
        (w.server.getAllClients env))).take w.freePlaces, queued.Sound := by
      intro queued member
      obtain ⟨name, listed, rfl⟩ := List.mem_map.mp (List.mem_of_mem_take member)
      exact request.message_sound sound (mem_recipients listed).2
    have short : Admissible (build (str "OK") [str "Broadcast sent"]) := by decide
    rw [← World.freePlaces, World.harmless_of_relay connected log short each]
    constructor
    · intro fits others free
      have some : recipients message.sender (w.server.getAllClients env) ≠ [] := fun none =>
        others (List.nil_perm.mp (none ▸ walked))
      obtain ⟨name, rest, names⟩ := List.exists_cons_of_ne_nil some
      obtain ⟨places, more⟩ := Nat.exists_eq_add_of_lt free
      apply fits { message with recipient := name }
      rw [names, more]
      exact List.mem_cons_self
    · intro fits queued member
      obtain ⟨name, listed, rfl⟩ := List.mem_map.mp (List.mem_of_mem_take member)
      have others : w.others message.sender ≠ [] :=
        List.ne_nil_of_mem (walked.mem_iff.mp listed)
      refine fits others (Nat.pos_of_ne_zero fun full => ?_)
      rw [full, List.take_zero] at member
      exact absurd member List.not_mem_nil
  · rw [if_neg everyone, request.run reject]
    dsimp only
    rw [if_neg everyone]
    by_cases absent : w.server.getUserSocket message.recipient ≤ 0
    · rw [if_pos absent, if_pos absent, World.harmless_of_reply connected queue log, admissible_build]
      have command : (str "ERROR").length = 5 := rfl
      have before : (str "User '").length = 6 := rfl
      have after : (str "' does not exist or is offline").length = 30 := by decide
      simp only [List.map_cons, List.map_nil, List.sum_cons, List.sum_nil, List.length_append,
        command, before, after]
      omega
    · rw [if_neg absent, if_neg absent]
      by_cases room : w.queue.length < w.capacity
      · have short : Admissible (build (str "OK") [str "Message sent"]) := by decide
        have named := handleOf_of_getUserSocket (Int.not_le.mp absent)
        rw [if_pos room, World.harmless_of_relay connected log short]
        · simp only [List.mem_singleton, forall_eq, room, forall_const]
        · intro queued member
          rw [List.mem_singleton.mp member]
          exact request.message_sound sound ⟨_, named⟩
      · have short : Admissible (build (str "ERROR")
            [str "Failed to send message: queue full or dispatcher error"]) := by decide
        rw [if_neg room, World.harmless_of_reply connected queue log]
        exact ⟨fun _ free => absurd free room, fun _ => short⟩

theorem WellFormedSend.command {command : Str} {arguments : List Str}
    (shape : parse raw = ⟨command, arguments, true⟩)
    (request : WellFormedSend env w raw socket message) : command = str "SEND" := by
  have request := request.request
  simp only [sendRequest, shape] at request
  split at request
  case h_2 => cases request
  case h_1 same =>
    obtain ⟨sends, _⟩ := Option.ite_none_right_eq_some.mp request
    exact (congrArg ParsedMessage.command same).trans sends

/-- The conditions of a message that parses, by the command it names. -/
theorem fits_iff {command : Str} {arguments : List Str}
    (shape : parse raw = ⟨command, arguments, true⟩) : Fits env w raw socket ↔
      (commands.lookup command = none → command.length + 24 ≤ Constants.maxMessageSize) ∧
      (command = str "SEND" → ∀ message, WellFormedSend env w raw socket message →
        SendFits w message) ∧
      (command = str "LIST_USERS" → (w.server.clients.keys.map fun name =>
        name.length + 1).sum + 6 ≤ Constants.maxMessageSize) ∧
      (command = str "GET_LOG" → ∀ content, env.serverLog = some content →
        (((fileLines content).drop ((fileLines content).length - 50)).map fun line =>
          line.length + 1).sum + 5 ≤ Constants.maxMessageSize) := by
  constructor
  · intro fits
    refine ⟨fits.unknown command arguments shape, fun _ => fits.send, ?_, ?_⟩
    · rintro rfl
      exact fits.users arguments shape
    · rintro rfl content
      exact fits.log arguments content shape
  · rintro ⟨unknown, send, users, log⟩
    constructor
    · intro other rest same
      cases shape.symm.trans same
      exact unknown
    · exact fun message request => send (request.command shape) message request
    · intro rest same
      cases shape.symm.trans same
      exact users rfl
    · intro rest content same
      cases shape.symm.trans same
      exact log rfl content

theorem fits_of_invalid (invalid : (parse raw).isValid = false) : Fits env w raw socket := by
  have other : ∀ {command arguments}, parse raw ≠ ⟨command, arguments, true⟩ := by
    intro command arguments same
    rw [same] at invalid
    cases invalid
  constructor
  · exact fun _ _ same => absurd same other
  · intro message request
    have request := request.request
    unfold sendRequest at request
    split at request
    case h_1 same => exact absurd same other
    case h_2 => cases request
  · exact fun _ same => absurd same other
  · exact fun _ _ same => absurd same other

theorem handleConnect_harmless (sound : w.Sound) (connected : 0 ≤ socket) (parsedData : List Str) :
    w.Harmless ((handleConnect parsedData socket).run (exec env) w).2 := by
  match parsedData with
  | [] | [_] =>
    rw [handleConnect_short (by simp)]
    exact World.harmless_of_silent rfl rfl
  | command :: name :: rest =>
    rw [handleConnect_run]
    dsimp only
    split_ifs with invalid banned taken
    · exact (World.harmless_of_reply connected rfl rfl).mpr (by decide)
    · let refusal := build (str "ERROR") [str "You are banned from this server"]
      have logged : ((w.reply env socket refusal).close socket).os.log = w.os.log ++
          ([.send socket (w.os.user socket) refusal (w.transferred env socket refusal)] ++
            [.close socket ((w.reply env socket refusal).os.holder socket)]) := by
        rw [← List.append_assoc, ← w.log_reply connected env refusal]
        rfl
      apply (World.harmless_of_log logged (World.queue_reply ..)).mpr
      have short : Admissible refusal := by decide
      exact fun frame member => List.mem_singleton.mp member ▸ short
    · exact (World.harmless_of_reply connected rfl rfl).mpr (by decide)
    · have valid := Username.of_valid sound.config (by simpa using invalid)
      have short : Admissible (build (str "OK") [str "Connected as " ++ sanitize name]) := by
        have bound := valid.bounded
        have command : (str "OK").length = 2 := rfl
        have before : (str "Connected as ").length = 13 := rfl
        rw [admissible_build]
        simp only [List.map_cons, List.map_nil, List.sum_cons, List.sum_nil, List.length_append,
          command, before, Constants.maxMessageSize]
        omega
      have logged : (w.registerClient env (sanitize name) socket).os.log =
        w.os.log ++ [.register (sanitize name) (w.os.holder socket)] := rfl
      have queue : ((w.registerClient env (sanitize name) socket).reply env socket
          (build (str "OK") [str "Connected as " ++ sanitize name])).queue = w.queue :=
        World.queue_reply ..
      rw [World.harmless_of_unqueued queue, World.frames_reply connected logged]
      exact fun frame member => List.mem_singleton.mp member ▸ short

theorem handleDisconnect_harmless (parsedData : List Str) :
    w.Harmless ((handleDisconnect parsedData socket).run (exec env) w).2 := by
  rw [handleDisconnect_run]
  dsimp only
  split_ifs with absent
  · exact World.harmless_of_silent rfl rfl
  · have logged : ((w.unregisterClient (w.server.getUsernameBySocket env socket)).close
        socket).os.log = w.os.log ++ [.unregister (w.server.getUsernameBySocket env socket),
          .close socket (w.os.holder socket)] := List.append_assoc ..
    apply (World.harmless_of_log logged rfl).mpr
    exact fun frame member => absurd member List.not_mem_nil

theorem handlePong_harmless (parsedData : List Str) :
    w.Harmless ((handlePong parsedData socket).run (exec env) w).2 := by
  have pong : ∀ username, w.Harmless (exec env (.updateClientPong username) w).2 := by
    intro username
    refine World.harmless_of_silent ?_ rfl
    simp only [exec, World.mapServer, Server.updateClientPong, World.queue]
    split <;> rfl
  simp only [handlePong, perform_bind, run_getUsernameBySocket, run_ite, pure_eq, run_done,
    run_perform]
  split_ifs
  · exact World.harmless_of_silent rfl rfl
  · exact pong _

theorem length_terminated (pieces : List Str) (terminator : UInt8) :
    (pieces.flatMap fun piece => piece ++ [terminator]).length =
      (pieces.map fun piece => piece.length + 1).sum := by
  simp only [List.length_flatMap, List.length_append, List.length_singleton]

/-- The comma after the last name is dropped, if there is a name at all. -/
theorem joinUsers_length (clients : List (Str × Fd)) :
    (joinUsers clients).length = ((clients.map Prod.fst).map fun name => name.length + 1).sum - 1 := by
  have whole := length_terminated (clients.map Prod.fst) 44
  rw [List.flatMap_map] at whole
  change (clients.flatMap fun entry => entry.1 ++ str ",").length = _ at whole
  rcases List.eq_nil_or_concat clients with rfl | ⟨init, last, rfl⟩
  · rfl
  · have ends : ((init.concat last).flatMap fun entry => entry.1 ++ str ",").getLast? = some 44 := by
      rw [List.concat_eq_append, List.flatMap_append, List.flatMap_singleton, ← List.append_assoc]
      exact List.getLast?_concat
    simp only [joinUsers, ends, if_true, List.length_dropLast, whole]

theorem handleListUsers_harmless (connected : 0 ≤ socket) (parsedData : List Str) :
    w.Harmless ((handleListUsers parsedData socket).run (exec env) w).2 ↔
      (w.server.clients.keys.map fun name => name.length + 1).sum + 6 ≤
        Constants.maxMessageSize := by
  have all := ((getAllClients_perm env w).map fun name => name.length + 1).sum_nat
  have command : (str "USERS").length = 5 := rfl
  simp only [handleListUsers, perform_bind, run_getAllClients, sendResponse_run]
  rw [World.harmless_of_reply connected rfl rfl, admissible_build]
  simp only [List.map_cons, List.map_nil, List.sum_cons, List.sum_nil, joinUsers_length, all,
    command, Constants.maxMessageSize]
  omega

theorem handleGetLog_harmless (connected : 0 ≤ socket) (parsedData : List Str) :
    w.Harmless ((handleGetLog parsedData socket).run (exec env) w).2 ↔
      ∀ content, env.serverLog = some content →
        (((fileLines content).drop ((fileLines content).length - 50)).map fun line =>
          line.length + 1).sum + 5 ≤ Constants.maxMessageSize := by
  simp only [handleGetLog, perform_bind, run_serverLog]
  cases env.serverLog with
  | none =>
    have short : Admissible (build (str "ERROR") [str "Log file not available"]) := by decide
    refine iff_of_true ?_ fun content found => absurd found.symm (Option.some_ne_none content)
    exact (World.harmless_of_reply connected rfl rfl).mpr short
  | some content =>
    simp only [Option.some.injEq, forall_eq', run_ite, run_bind, sendResponse_run, pure_eq, run_done]
    by_cases empty : fileLines content = []
    · have short : Admissible (build (str "LOG") [str "Log file is empty"]) := by decide
      rw [if_pos empty, World.harmless_of_reply connected rfl rfl]
      apply iff_of_true short
      rw [empty]
      decide
    · have start : (if 50 < (fileLines content).length then (fileLines content).length - 50 else 0) =
          (fileLines content).length - 50 := by
        split_ifs <;> omega
      have command : (str "LOG").length = 3 := rfl
      rw [if_neg empty, World.harmless_of_reply connected rfl rfl, admissible_build]
      simp only [List.map_cons, List.map_nil, List.sum_cons, List.sum_nil, logTail, start,
        length_terminated, command]
      omega

theorem handleSendMessage_harmless (sound : w.Sound) (connected : 0 ≤ socket)
    {arguments : List Str} (shape : parse raw = ⟨str "SEND", arguments, true⟩) :
    w.Harmless ((handleMessage raw socket).run (exec env) w).2 ↔
      ∀ message, WellFormedSend env w raw socket message → SendFits w message := by
  by_cases formed : ∃ message, WellFormedSend env w raw socket message
  · obtain ⟨message, request⟩ := formed
    rw [request.harmless_iff sound connected]
    constructor
    · intro fits other again
      cases request.request.symm.trans again.request
      exact fits
    · exact fun fits => fits message request
  · refine iff_of_true ?_ fun message request => absurd ⟨message, request⟩ formed
    have handled : handleMessage raw socket = handleSendMessage (str "SEND" :: arguments) socket := by
      simp only [handleMessage, shape, if_true, executeCommand]
      rfl
    rw [handled]
    -- a SEND that is not well formed is answered with one of four constant texts
    rcases arguments with _ | ⟨recipient, _ | ⟨subject, _ | ⟨body, rest⟩⟩⟩
    iterate 3
      · rw [handleSendMessage_short (by simp)]
        exact (World.harmless_of_reply connected rfl rfl).mpr (by decide)
    · have request : sendRequest env w raw socket =
          some (requested env w socket recipient subject body) := by
        simp only [sendRequest, shape, if_true]
      have log : w.countReceived.os.log = w.os.log := rfl
      have queue : w.countReceived.queue = w.queue := rfl
      rw [handleSendMessage_run env sound.rejecting]
      dsimp only
      split_ifs with unknown badSubject badBody
      · exact (World.harmless_of_reply connected rfl rfl).mpr (by decide)
      · exact (World.harmless_of_reply connected queue log).mpr (by decide)
      · exact (World.harmless_of_reply connected queue log).mpr (by decide)
      all_goals
        exact absurd ⟨_, request, unknown, by simpa using badSubject, by simpa using badBody⟩ formed

/-- Commands other than these are answered with short texts only. -/
theorem fits_of_plain {command : Str} {arguments : List Str}
    (shape : parse raw = ⟨command, arguments, true⟩) (known : commands.lookup command ≠ none)
    (plain : command ∉ [str "SEND", str "LIST_USERS", str "GET_LOG"]) : Fits env w raw socket := by
  apply (fits_iff shape).mpr
  refine ⟨fun unknown => absurd unknown known, ?_, ?_, ?_⟩
  all_goals
    rintro rfl
    exact absurd (by simp) plain

theorem fits_send {arguments : List Str} (shape : parse raw = ⟨str "SEND", arguments, true⟩) :
    Fits env w raw socket ↔
      ∀ message, WellFormedSend env w raw socket message → SendFits w message := by
  rw [fits_iff shape]
  constructor
  · exact fun fits => fits.2.1 rfl
  · intro fits
    refine ⟨fun unknown => absurd unknown (by decide), fun _ => fits, ?_, ?_⟩
    all_goals exact fun same => absurd same (by decide)

theorem fits_listUsers {arguments : List Str}
    (shape : parse raw = ⟨str "LIST_USERS", arguments, true⟩) : Fits env w raw socket ↔
      (w.server.clients.keys.map fun name => name.length + 1).sum + 6 ≤
        Constants.maxMessageSize := by
  rw [fits_iff shape]
  constructor
  · exact fun fits => fits.2.2.1 rfl
  · intro short
    refine ⟨fun unknown => absurd unknown (by decide), ?_, fun _ => short, ?_⟩
    all_goals exact fun same => absurd same (by decide)

theorem fits_getLog {arguments : List Str}
    (shape : parse raw = ⟨str "GET_LOG", arguments, true⟩) : Fits env w raw socket ↔
      ∀ content, env.serverLog = some content →
        (((fileLines content).drop ((fileLines content).length - 50)).map fun line =>
          line.length + 1).sum + 5 ≤ Constants.maxMessageSize := by
  rw [fits_iff shape]
  constructor
  · exact fun fits => fits.2.2.2 rfl
  · intro short
    refine ⟨fun unknown => absurd unknown (by decide), ?_, ?_, fun _ => short⟩
    all_goals exact fun same => absurd same (by decide)

/-- An unknown command is echoed. -/
theorem harmless_iff_of_unknown (connected : 0 ≤ socket) {command : Str} {arguments : List Str}
    (shape : parse raw = ⟨command, arguments, true⟩) (found : commands.lookup command = none) :
    w.Harmless ((handleMessage raw socket).run (exec env) w).2 ↔ Fits env w raw socket := by
  have other : ∀ name ∈ commands.map Prod.fst, command ≠ name := by
    intro name listed same
    obtain ⟨entry, member, rfl⟩ := List.mem_map.mp listed
    have differs := List.lookup_eq_none_iff.mp found entry member
    exact absurd same (by simpa using differs)
  have answered : handleMessage raw socket = sendError socket
      (str "Unknown command: " ++ command) := by
    simp only [handleMessage, shape, if_true, executeCommand, found]
    rfl
  have error : (str "ERROR").length = 5 := rfl
  have before : (str "Unknown command: ").length = 17 := rfl
  rw [answered, sendError_run, World.harmless_of_reply connected rfl rfl, admissible_build,
    fits_iff shape]
  simp only [List.map_cons, List.map_nil, List.sum_cons, List.sum_nil, List.length_append,
    error, before]
  constructor
  · intro short
    refine ⟨fun _ => by omega, ?_, ?_, ?_⟩
    all_goals exact fun same => absurd same (other _ (by simp [commands]))
  · intro fits
    have short := fits.1 found
    omega

/-- Everything a message makes the server write can be received again exactly
when the texts it asks for are short enough. -/
theorem harmless_iff (sound : w.Sound) (connected : 0 ≤ socket) :
    w.Harmless ((handleMessage raw socket).run (exec env) w).2 ↔ Fits env w raw socket := by
  cases shape : parse raw with
  | mk command arguments isValid =>
    cases isValid with
    | false =>
      refine iff_of_true ?_ (fits_of_invalid (by rw [shape]))
      simp only [handleMessage, shape, Bool.false_eq_true, if_false, run_done]
      exact World.harmless_of_silent rfl rfl
    | true =>
      cases found : commands.lookup command with
      | none => exact harmless_iff_of_unknown connected shape found
      | some handler =>
        have listed : (command, handler) ∈ commands := mem_of_lookup found
        have known : commands.lookup command ≠ none := by rw [found]; exact Option.some_ne_none _
        have handled : handleMessage raw socket = handler (command :: arguments) socket := by
          simp only [handleMessage, shape, if_true, executeCommand, found]
        simp only [commands, List.mem_cons, Prod.mk.injEq, List.not_mem_nil, or_false] at listed
        rcases listed with ⟨rfl, rfl⟩ | ⟨rfl, rfl⟩ | ⟨rfl, rfl⟩ | ⟨rfl, rfl⟩ | ⟨rfl, rfl⟩ |
          ⟨rfl, rfl⟩ | ⟨rfl, rfl⟩
        · refine iff_of_true ?_ (fits_of_plain shape known (by decide))
          rw [handled]
          exact handleConnect_harmless sound connected _
        · refine iff_of_true ?_ (fits_of_plain shape known (by decide))
          rw [handled]
          exact handleDisconnect_harmless _
        · rw [handleSendMessage_harmless sound connected shape, fits_send shape]
        · refine iff_of_true ?_ (fits_of_plain shape known (by decide))
          rw [handled, handlePing, sendResponse_run]
          exact (World.harmless_of_reply connected rfl rfl).mpr (by decide)
        · refine iff_of_true ?_ (fits_of_plain shape known (by decide))
          rw [handled]
          exact handlePong_harmless _
        · rw [handled, handleListUsers_harmless connected, fits_listUsers shape]
        · rw [handled, handleGetLog_harmless connected, fits_getLog shape]

end CommandHandler

namespace System
open CommandHandler

/-- What an accepted frame leads to passes the length check of every receiver
exactly when the echoed, relayed or listed texts leave room for the rest. -/
theorem frames_harmless_iff {s after : System} {env : Env} {i : ConnId} {raw : Str} {socket : Fd}
    (reached : Reachable s) (live : s.liveLoop i = some socket)
    (stepped : step s (env, .receive i raw) = some after) :
    s.world.Harmless after.world ↔ Fits env s.world raw socket := by
  have sound := reached.sound
  obtain ⟨_, stepped⟩ := step_cases stepped
  cases stepped with
  | receive reads =>
    obtain rfl := Option.some.inj (live.symm.trans reads)
    exact harmless_iff sound.world (sound.nonneg live)

/-- A SEND from connection 0 to bob, as a client builds it. -/
def sendToBob (body : Str) : Str := build (str "SEND") [str "bob", str "hello", body]

/-- Both users of `queuedMessage`, before anything is sent. -/
theorem bothConnected : ∃ s, Reachable s ∧ s.world.server.status = .running ∧
    s.liveLoop 0 = some 5 ∧ s.world.os.user 5 = some 0 ∧
    s.world.server.getUsernameBySocket .plain 5 = str "ann" ∧
    s.world.server.getUserSocket (str "bob") = 6 ∧ s.world.queue = [] ∧ s.world.capacity = 10000 ∧
    isValidSubject s.world.runtimeConfig (str "hello") = true := by
  obtain ⟨s, before, connected⟩ := Transition.evaluated (o := plainRun (queuedMessage.take 4))
    (P := fun s => s.world.server.status = .running ∧ s.liveLoop 0 = some 5 ∧
      s.world.os.user 5 = some 0 ∧ s.world.server.getUsernameBySocket .plain 5 = str "ann" ∧
      s.world.server.getUserSocket (str "bob") = 6 ∧ s.world.queue = [] ∧
      s.world.capacity = 10000 ∧ isValidSubject s.world.runtimeConfig (str "hello") = true)
    (by decide)
  exact ⟨s, reachable_of_plainRun before, connected⟩

/-- Such a message is harmful exactly when its frame has fewer than five bytes to spare. -/
theorem fits_sendToBob {w : World} {body : Str} (nonempty : body ≠ []) (free : 59 ∉ body)
    (sender : w.server.getUsernameBySocket .plain 5 = str "ann")
    (recipient : w.server.getUserSocket (str "bob") = 6) (queue : w.queue = [])
    (capacity : w.capacity = 10000) (subject : isValidSubject w.runtimeConfig (str "hello") = true) :
    Fits .plain w (sendToBob body) 5 ↔ body.length + 21 ≤ Constants.maxMessageSize := by
  have fields : ∀ field ∈ [str "SEND", str "bob", str "hello", body], (59 : UInt8) ∉ field := by
    intro field member
    simp only [List.mem_cons, List.not_mem_nil, or_false] at member
    rcases member with rfl | rfl | rfl | rfl
    · decide
    · decide
    · decide
    · exact free
  have shape : parse (sendToBob body) = ⟨str "SEND", [str "bob", str "hello", body], true⟩ :=
    parse_build_free (.inl (by decide)) fields
  have request : sendRequest .plain w (sendToBob body) 5 =
      some (requested .plain w 5 (str "bob") (str "hello") body) := by
    simp only [sendRequest, shape, if_true]
  have length : (requested .plain w 5 (str "bob") (str "hello") body).payload =
      body.length + 9 := by
    have name : (str "ann").length = 3 := rfl
    have title : (sanitize (str "hello")).length = 5 := rfl
    have time : (timestampToUnixString 0).length = 1 := by decide
    simp only [Message.payload, requested, sender, sanitize_length body, name, title]
    simp only [Env.plain, time]
    omega
  have formed : WellFormedSend .plain w (sendToBob body) 5
      (requested .plain w 5 (str "bob") (str "hello") body) := by
    refine ⟨request, ?_, subject, ?_⟩
    · rw [requested, sender]
      exact List.cons_ne_nil _ _
    · simpa [isValidBody, requested, sanitize_eq_nil] using nonempty
  have bob : (requested .plain w 5 (str "bob") (str "hello") body).recipient = str "bob" := rfl
  rw [fits_send shape]
  constructor
  · intro fits
    have short := fits _ formed
    rw [SendFits, bob, if_neg (by decide), recipient, if_neg (by decide), queue, capacity,
      length] at short
    exact short (by decide)
  · intro short message other
    cases request.symm.trans other.request
    rw [SendFits, bob, if_neg (by decide), recipient, if_neg (by decide), length]
    exact fun _ => short

theorem frames_harmless_of_short : ∃ s after, Reachable s ∧
    step s (.plain, .receive 0 (sendToBob (str "world"))) = some after ∧
    s.world.Harmless after.world := by
  obtain ⟨s, reached, running, live, used, sender, recipient, queue, capacity, subject⟩ :=
    bothConnected
  have admissible : Admissible (sendToBob (str "world")) := by decide
  have stepped : ∃ after, step s (.plain, .receive 0 (sendToBob (str "world"))) = some after := by
    simp [step, running, live, used, admissible]
  obtain ⟨after, stepped⟩ := stepped
  refine ⟨s, after, reached, stepped, (frames_harmless_iff reached live stepped).mpr ?_⟩
  exact (fits_sendToBob (by decide) (by decide) sender recipient queue capacity subject).mpr
    (by decide)

/-- A message that fills its frame to the limit is accepted and outgrows the
limit on its way to the recipient. -/
theorem frames_not_always_harmless : ¬ ∀ (s after : System) (env : Env) (i : ConnId) (raw : Str)
    (socket : Fd), Reachable s → s.liveLoop i = some socket →
    step s (env, .receive i raw) = some after → s.world.Harmless after.world := by
  intro claimed
  obtain ⟨s, reached, running, live, used, sender, recipient, queue, capacity, subject⟩ :=
    bothConnected
  obtain ⟨body, length, free⟩ : ∃ body : Str, body.length = Constants.maxMessageSize - 16 ∧
      59 ∉ body := by
    refine ⟨List.replicate _ 65, List.length_replicate, fun member => ?_⟩
    exact absurd (List.eq_of_mem_replicate member) (by decide)
  have nonempty : body ≠ [] := by
    intro empty
    rw [empty] at length
    exact absurd length (by decide)
  have admissible : Admissible (sendToBob body) := by
    have command : (str "SEND").length = 4 := rfl
    have name : (str "bob").length = 3 := rfl
    have title : (str "hello").length = 5 := rfl
    rw [sendToBob, admissible_build]
    simp only [List.map_cons, List.map_nil, List.sum_cons, List.sum_nil, command, name, title,
      length, Constants.maxMessageSize]
    omega
  have stepped : ∃ after, step s (.plain, .receive 0 (sendToBob body)) = some after := by
    simp [step, running, live, used, admissible]
  obtain ⟨after, stepped⟩ := stepped
  have harmless := claimed s after .plain 0 _ 5 reached live stepped
  obtain ⟨_, taken⟩ := step_cases stepped
  cases taken with
  | receive reads =>
    obtain rfl := Option.some.inj (live.symm.trans reads)
    have fits := (harmless_iff reached.sound.world (by decide)).mp harmless
    have short := (fits_sendToBob nonempty free sender recipient queue capacity subject).mp fits
    rw [length, Constants.maxMessageSize] at short
    omega

end System
end SocketMessaging
