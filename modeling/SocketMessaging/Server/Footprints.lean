import SocketMessaging.Server.HandlerSpecs
import SocketMessaging.Server.Threads

/-! Which actions a program can come to perform. A handler loop acts on its own
number only; every other thread acts on numbers that it has looked up. -/
namespace SocketMessaging
open Prog Utils MessageParser

/-- The actions of a handler loop that reads this number. -/
def Action.OfLoop (socket : Fd) : ∀ {β : Type}, Action β → Prop
  | _, .registerClient _ number => number = socket
  | _, .send number _ => number = socket
  | _, .close number => number = socket
  | _, .getTimedOutClients => False
  | _, .popMessage => False
  | _, .pingClients => False
  | _, .banlistAdd _ => False
  | _, .banlistRemove _ => False
  | _, .setConfig _ _ => False
  | _, .resetConfig => False
  | _, .stop => False
  | _, _ => True

/-- The action is no access past the end of a vector. -/
def Action.InRange : ∀ {β : Type}, Action β → Prop
  | _, .outOfRange => False
  | _, _ => True

namespace CommandHandler

/-- What a handler loop comes to do when it reads a frame. -/
abbrev Loops (socket : Fd) (program : Handler) : Prop :=
  program.Only fun action => action.OfLoop socket ∧ action.InRange

attribute [local simp] Action.OfLoop Action.InRange

theorem sendResponse_loops (socket : Fd) (message : Str) : Loops socket (sendResponse socket message) :=
  ⟨⟨rfl, trivial⟩, fun _ => trivial⟩

theorem sendError_loops (socket : Fd) (error : Str) : Loops socket (sendError socket error) :=
  sendResponse_loops socket _

theorem sendOK_loops (socket : Fd) (message : Str) : Loops socket (sendOK socket message) :=
  sendResponse_loops socket _

theorem handleConnect_loops (parsedData : List Str) (socket : Fd) :
    Loops socket (handleConnect parsedData socket) := by
  have error := sendError_loops socket
  by_cases short : parsedData.length < 2
  · rw [handleConnect_short short]
    trivial
  · simp only [handleConnect, short, if_false, nth_of_lt (show 1 < parsedData.length by omega),
      perform_bind, done_bind, pure_eq, only_act, only_ite, Action.OfLoop, Action.InRange, true_and]
    refine fun config => ⟨fun _ => (error _).bind fun _ => trivial, fun _ banned => ?_⟩
    refine ⟨fun _ => (error _).bind fun _ => ⟨⟨rfl, trivial⟩, fun _ => trivial⟩, fun _ taken => ?_⟩
    exact ⟨fun _ => (error _).bind fun _ => trivial, fun _ _ => sendResponse_loops socket _⟩

theorem handleDisconnect_loops (parsedData : List Str) (socket : Fd) :
    Loops socket (handleDisconnect parsedData socket) := by
  simp only [Loops, handleDisconnect, perform_bind, pure_eq, only_act, only_ite, only_done,
    only_perform, Action.OfLoop, Action.InRange, implies_true, and_self]

theorem queueBroadcast_loops (socket : Fd) (message : Message) (clients : List (Str × Fd)) :
    Loops socket (queueBroadcast message clients) := by
  induction clients with
  | nil => trivial
  | cons entry clients ih =>
    unfold queueBroadcast
    split
    · exact ⟨⟨trivial, trivial⟩, fun _ => ih⟩
    · exact ih

theorem handleSendMessage_loops (parsedData : List Str) (socket : Fd) :
    Loops socket (handleSendMessage parsedData socket) := by
  have error := sendError_loops socket
  have ok := sendOK_loops socket
  by_cases short : parsedData.length < 4
  · simp only [handleSendMessage, short, if_true]
    exact (error _).bind fun _ => trivial
  · simp only [handleSendMessage, short, if_false, nth_of_lt (show 1 < parsedData.length by omega),
      nth_of_lt (show 2 < parsedData.length by omega),
      nth_of_lt (show 3 < parsedData.length by omega), perform_bind, done_bind, pure_eq, only_act,
      only_ite, Action.OfLoop, Action.InRange, true_and]
    intro sender
    refine ⟨fun _ => (error _).bind fun _ => trivial, fun _ _ clock config => ?_⟩
    refine ⟨fun _ => (error _).bind fun _ => trivial, fun _ => ?_⟩
    refine ⟨fun _ => (error _).bind fun _ => trivial, fun _ => ?_⟩
    constructor
    · intro _ clients
      exact (queueBroadcast_loops socket _ _).bind fun _ => (ok _).bind fun _ => trivial
    · intro _ recipientSocket
      exact ⟨fun _ => (error _).bind fun _ => trivial, fun _ queued => ⟨fun _ => ok _, fun _ => error _⟩⟩

theorem handlePong_loops (parsedData : List Str) (socket : Fd) :
    Loops socket (handlePong parsedData socket) := by
  simp only [Loops, handlePong, perform_bind, pure_eq, only_act, only_ite, only_done, only_perform,
    Action.OfLoop, Action.InRange, implies_true, and_self]

theorem handleGetLog_loops (parsedData : List Str) (socket : Fd) :
    Loops socket (handleGetLog parsedData socket) := by
  refine ⟨⟨trivial, trivial⟩, fun content => ?_⟩
  cases content with
  | none => exact sendError_loops _ _
  | some content =>
    change Loops socket (if fileLines content = [] then _ else _)
    split <;> exact sendResponse_loops socket _

theorem handleMessage_loops (raw : Str) (socket : Fd) : Loops socket (handleMessage raw socket) := by
  have handled := handleMessage_handled raw socket
  generalize handleMessage raw socket = program at handled ⊢
  cases handled with
  | invalid => trivial
  | unknown | ping => exact sendResponse_loops socket _
  | connect => exact handleConnect_loops _ socket
  | disconnect => exact handleDisconnect_loops _ socket
  | sendMessage => exact handleSendMessage_loops _ socket
  | pong => exact handlePong_loops _ socket
  | listUsers => exact ⟨⟨trivial, trivial⟩, fun _ => sendResponse_loops socket _⟩
  | getLog => exact handleGetLog_loops _ socket

theorem handleMessage_ofLoop (raw : Str) (socket : Fd) :
    (handleMessage raw socket).Only (Action.OfLoop socket) :=
  (handleMessage_loops raw socket).weaken fun _ => And.left

theorem handleDisconnect_ofLoop (parsedData : List Str) (socket : Fd) :
    (handleDisconnect parsedData socket).Only (Action.OfLoop socket) :=
  (handleDisconnect_loops parsedData socket).weaken fun _ => And.left

theorem handleReceiveFailure_ofLoop (socket : Fd) :
    (handleReceiveFailure socket).Only (Action.OfLoop socket) := by
  refine ⟨trivial, fun username => ?_⟩
  change (if username ≠ [] then handleDisconnect [] socket else pure ()).Only _
  split
  · exact handleDisconnect_ofLoop [] socket
  · trivial

end CommandHandler

/-- The action is not performed on this number. -/
def Action.Misses (socket : Fd) : ∀ {β : Type}, Action β → Prop
  | _, .registerClient _ number => number ≠ socket
  | _, .send number _ => number ≠ socket
  | _, .close number => number ≠ socket
  | _, _ => True

/-- The action does not return this number as the one stored for some name. -/
def Action.Hides (socket : Fd) : ∀ {β : Type}, Action β → β → Prop
  | _, .getUserSocket _, number => number ≠ socket
  | _, .getAllClients, clients => ∀ entry ∈ clients, entry.2 ≠ socket
  | _, _, _ => True

theorem Action.OfLoop.misses {own socket : Fd} (apart : own ≠ socket) {β : Type} {action : Action β}
    (ofLoop : action.OfLoop own) : action.Misses socket := by
  cases action with
  | registerClient | send | close => exact fun same => apart (ofLoop.symm.trans same)
  | _ => trivial

/-- The program acts on this number only if a lookup returns it. -/
abbrev Handler.Avoids (socket : Fd) (program : Handler) : Prop :=
  program.Under (Action.Hides socket) (Action.Misses socket)

variable {socket : Fd}

theorem runOnce_avoids : Handler.Avoids socket Dispatcher.runOnce := by
  refine ⟨trivial, fun next _ => ?_⟩
  cases next with
  | none => trivial
  | some message =>
    change Handler.Avoids socket (Dispatcher.deliver message)
    simp only [Dispatcher.deliver, perform_bind, pure_eq, under_act, under_ite, under_done,
      Action.Misses, Action.Hides, true_and]
    intro recipient hidden
    refine ⟨fun _ sender hidden => ⟨fun _ => ⟨hidden, fun _ _ => trivial⟩, fun _ => trivial⟩, ?_⟩
    exact fun _ => ⟨hidden, fun _ _ => ⟨fun _ => ⟨trivial, fun _ _ => trivial⟩, fun _ => trivial⟩⟩

theorem disconnectTimedOut_avoids (names : List Str) :
    Handler.Avoids socket (disconnectTimedOut names) := by
  induction names with
  | nil => trivial
  | cons username names ih =>
    simp only [disconnectTimedOut, perform_bind, under_act, under_ite]
    refine ⟨trivial, fun number hidden => ⟨fun _ => ?_, fun _ => ih⟩⟩
    have only := CommandHandler.handleDisconnect_ofLoop [] number
    exact (only.weaken fun _ => Action.OfLoop.misses hidden).under.bind fun _ => ih

namespace AdminCommandHandler

theorem sendToAll_avoids (message : Str) {clients : List (Str × Fd)}
    (hidden : ∀ entry ∈ clients, entry.2 ≠ socket) :
    Handler.Avoids socket (sendToAll message clients) := by
  induction clients with
  | nil => trivial
  | cons entry clients ih =>
    obtain ⟨first, rest⟩ := List.forall_mem_cons.mp hidden
    exact ⟨first, fun _ _ => ih rest⟩

theorem nth_avoids (items : List Str) (index : Nat) :
    (nth items index).Under (Action.Hides socket) (Action.Misses socket) :=
  (nth_only trivial items index).under

theorem disconnectUser_avoids (username reason : Str) :
    (disconnectUser username reason).Under (Action.Hides socket) (Action.Misses socket) := by
  refine ⟨trivial, fun number hidden => ?_⟩
  change (if number ≤ 0 then _ else _ : Prog Action Bool).Under _ _
  split
  · trivial
  · exact ⟨hidden, fun _ _ => ⟨trivial, fun _ _ => ⟨hidden, fun _ _ => trivial⟩⟩⟩

theorem handler_avoids {cmdName : Str} {cmd : AdminCommand} (listed : Listed cmdName cmd)
    (args : List Str) : Handler.Avoids socket (cmd.handler args) := by
  have name : ∀ index, (nth args index).Under (Action.Hides socket) (Action.Misses socket) :=
    nth_avoids args
  cases listed with
  | print => trivial
  | broadcast => exact ⟨trivial, fun clients hidden => sendToAll_avoids _ hidden⟩
  | send =>
    refine (name 1).bind fun username => ⟨trivial, fun number hidden => ?_⟩
    change (if number ≤ 0 then _ else _ : Handler).Under _ _
    split
    · trivial
    · exact ⟨hidden, fun _ _ => trivial⟩
  | kick => exact (name 1).bind fun _ => (disconnectUser_avoids _ _).bind fun _ => trivial
  | ban =>
    refine (name 1).bind fun _ => (disconnectUser_avoids _ _).bind fun found => ?_
    split
    · exact ⟨trivial, fun _ _ => trivial⟩
    · trivial
  | unban => exact (name 1).bind fun _ => ⟨trivial, fun _ _ => trivial⟩
  | set => exact (name 1).bind fun _ => (name 2).bind fun _ => ⟨trivial, fun _ _ => trivial⟩
  | reset | stop => exact ⟨trivial, fun _ _ => trivial⟩

end AdminCommandHandler

theorem Task.program_avoids (task : Task) : Handler.Avoids socket task.program := by
  cases task with
  | dispatch => exact runOnce_avoids
  | admin line =>
    rcases AdminCommandHandler.commandLine_cases line with nothing | ⟨cmdName, cmd, args, listed, same⟩
    · rw [Task.program, nothing]
      trivial
    · rw [Task.program, same]
      exact AdminCommandHandler.handler_avoids listed args
  | heartbeat => exact ⟨trivial, fun _ _ => trivial⟩
  | checkTimeouts => exact ⟨trivial, fun names _ => disconnectTimedOut_avoids names⟩

end SocketMessaging
