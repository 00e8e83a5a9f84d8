import SocketMessaging.Server.HandlerSpecs
import SocketMessaging.Server.Threads

/-! What is left of a program when it is interrupted. A handler loop is within a
login, within a logout, or has only harmless actions left to perform; the other
threads never log anybody in. -/
namespace SocketMessaging
open Prog Utils MessageParser

/-- The answer to a CONNECT that registered a name. -/
def connectedAs (username : Str) : Str := build (str "OK") [str "Connected as " ++ username]

theorem connectedAs_inj {first second : Str} (same : connectedAs first = connectedAs second) :
    first = second := by
  simpa [connectedAs, build] using same

/-- The first bytes of `connectedAs`, and of no other message of the server. -/
def confirmation : Str := str "OK;C"

theorem take_connectedAs (username : Str) : (connectedAs username).take 4 = confirmation := rfl

/-- Actions that neither register a name nor confirm that one was registered. -/
def Action.Unconfirming : ∀ {β : Type}, Action β → Prop
  | _, .registerClient _ _ => False
  | _, .send _ message => message.take 4 ≠ confirmation
  | _, _ => True

/-- Actions that leave the registry alone and close no number but this one. -/
def Action.Confined (socket : Fd) : ∀ {β : Type}, Action β → Prop
  | _, .registerClient _ _ => False
  | _, .unregisterClient _ => False
  | _, .close number => number = socket
  | _, .stop => False
  | _, _ => True

def Action.Common (socket : Fd) {β : Type} (action : Action β) : Prop :=
  action.Unconfirming ∧ action.Confined socket

theorem Action.Quiet.confined {β : Type} (socket : Fd) {action : Action β} (quiet : action.Quiet) :
    action.Confined socket := by
  cases action with
  | registerClient | unregisterClient | close | stop => exact quiet.elim
  | _ => trivial

theorem common_of_quiet {socket : Fd} {program : Handler} (quiet : program.Only Action.Quiet)
    (unconfirming : program.Only Action.Unconfirming) : program.Only (Action.Common socket) :=
  unconfirming.and (quiet.weaken fun _ quiet => quiet.confined socket)

namespace CommandHandler

theorem sendError_unconfirming (socket : Fd) (error : Str) :
    (sendError socket error).Only Action.Unconfirming :=
  ⟨show str "ERRO" ≠ confirmation by decide, fun _ => trivial⟩

theorem sendOK_unconfirming {message : Str} (other : (build (str "OK") [message]).take 4 ≠ confirmation)
    (nonempty : message ≠ []) (socket : Fd) : (sendOK socket message).Only Action.Unconfirming := by
  rw [sendOK, if_neg nonempty]
  exact ⟨other, fun _ => trivial⟩

theorem queueBroadcast_unconfirming (message : Message) (clients : List (Str × Fd)) :
    (queueBroadcast message clients).Only Action.Unconfirming := by
  induction clients with
  | nil => trivial
  | cons entry clients ih =>
    obtain ⟨username, socket⟩ := entry
    unfold queueBroadcast
    split
    · exact ⟨trivial, fun _ => ih⟩
    · exact ih

theorem handleSendMessage_unconfirming (parsedData : List Str) (socket : Fd) :
    (handleSendMessage parsedData socket).Only Action.Unconfirming := by
  have error := sendError_unconfirming socket
  have broadcast : (sendOK socket (str "Broadcast sent")).Only Action.Unconfirming :=
    sendOK_unconfirming (by decide) (by decide) socket
  have sent : (sendOK socket (str "Message sent")).Only Action.Unconfirming :=
    sendOK_unconfirming (by decide) (by decide) socket
  by_cases short : parsedData.length < 4
  · simp only [handleSendMessage, short, if_true]
    exact (error _).bind fun _ => trivial
  · simp only [handleSendMessage, short, if_false, nth_of_lt (show 1 < parsedData.length by omega),
      nth_of_lt (show 2 < parsedData.length by omega),
      nth_of_lt (show 3 < parsedData.length by omega), perform_bind, done_bind, pure_eq, only_act,
      only_ite, Action.Unconfirming, true_and]
    intro sender
    refine ⟨fun _ => (error _).bind fun _ => trivial, fun _ _ clock config => ?_⟩
    refine ⟨fun _ => (error _).bind fun _ => trivial, fun _ => ?_⟩
    refine ⟨fun _ => (error _).bind fun _ => trivial, fun _ => ?_⟩
    refine ⟨fun _ clients => ?_, fun _ recipientSocket => ?_⟩
    · exact (queueBroadcast_unconfirming _ _).bind fun _ => broadcast.bind fun _ => trivial
    · exact ⟨fun _ => (error _).bind fun _ => trivial, fun _ queued => ⟨fun _ => sent, fun _ => error _⟩⟩

theorem handlePong_unconfirming (parsedData : List Str) (socket : Fd) :
    (handlePong parsedData socket).Only Action.Unconfirming := by
  simp only [handlePong, perform_bind, pure_eq, only_act, only_ite, only_done, only_perform,
    Action.Unconfirming, implies_true, and_self]

theorem handleGetLog_unconfirming (parsedData : List Str) (socket : Fd) :
    (handleGetLog parsedData socket).Only Action.Unconfirming := by
  have log : ∀ content, (sendResponse socket (build (str "LOG") [content])).Only
      Action.Unconfirming :=
    fun content => ⟨show str "LOG;" ≠ confirmation by decide, fun _ => trivial⟩
  simp only [handleGetLog, perform_bind, only_act, Action.Unconfirming, true_and]
  intro content
  cases content with
  | none => exact sendError_unconfirming _ _
  | some content =>
    simp only [only_ite]
    exact ⟨fun _ => (log _).bind fun _ => trivial, fun _ => log _⟩

theorem handleDisconnect_unconfirming (parsedData : List Str) (socket : Fd) :
    (handleDisconnect parsedData socket).Only Action.Unconfirming := by
  simp only [handleDisconnect, perform_bind, pure_eq, only_act, only_ite, only_done, only_perform,
    Action.Unconfirming, implies_true, and_self]

theorem handleReceiveFailure_unconfirming (socket : Fd) :
    (handleReceiveFailure socket).Only Action.Unconfirming := by
  refine ⟨trivial, fun username => ?_⟩
  change (if username ≠ [] then handleDisconnect [] socket else pure ()).Only _
  split
  · exact handleDisconnect_unconfirming [] socket
  · trivial

end CommandHandler

theorem deliver_unconfirming (message : Message) :
    (Dispatcher.deliver message).Only Action.Unconfirming := by
  have frame : (Dispatcher.formattedMessage message).take 4 ≠ confirmation :=
    show str "MESS" ≠ confirmation by decide
  have notice : (Dispatcher.undeliverable message).take 4 ≠ confirmation :=
    show str "ERRO" ≠ confirmation by decide
  simp only [Dispatcher.deliver, perform_bind, pure_eq, only_act, only_ite, only_done,
    only_perform, Action.Unconfirming, frame, notice, ne_eq, not_false_eq_true, implies_true,
    and_self]

theorem runOnce_unconfirming : Dispatcher.runOnce.Only Action.Unconfirming := by
  refine ⟨trivial, fun next => ?_⟩
  cases next with
  | none => trivial
  | some message => exact deliver_unconfirming message

theorem disconnectTimedOut_unconfirming (names : List Str) :
    (disconnectTimedOut names).Only Action.Unconfirming :=
  disconnectTimedOut_only (fun _ => trivial) (CommandHandler.handleDisconnect_unconfirming []) names

namespace AdminCommandHandler

theorem announcement_unconfirming (subject message : Str) :
    (announcement subject message).take 4 ≠ confirmation :=
  show str "MESS" ≠ confirmation by decide

theorem disconnectUser_unconfirming (username reason : Str) :
    (disconnectUser username reason).Only Action.Unconfirming := by
  have other : (build (str "ERROR") [reason]).take 4 ≠ confirmation :=
    show str "ERRO" ≠ confirmation by decide
  simp only [disconnectUser, perform_bind, pure_eq, only_act, only_ite, only_done,
    Action.Unconfirming, other, ne_eq, not_false_eq_true, implies_true, and_self]

theorem commandLine_unconfirming (line : Str) : (commandLine line).Only Action.Unconfirming := by
  refine (commandLine_ofConsole line).weaken fun action ofConsole => ?_
  cases action with
  | registerClient => exact ofConsole.elim
  | send socket message =>
    rcases ofConsole with ⟨_, subject, text, rfl⟩ | ⟨reason, rfl⟩
    · exact announcement_unconfirming subject text
    · exact show str "ERRO" ≠ confirmation by decide
  | _ => trivial

end AdminCommandHandler

theorem Task.program_unconfirming (task : Task) : task.program.Only Action.Unconfirming := by
  cases task with
  | dispatch => exact runOnce_unconfirming
  | admin line => exact AdminCommandHandler.commandLine_unconfirming line
  | heartbeat => exact ⟨trivial, fun _ => trivial⟩
  | checkTimeouts => exact ⟨trivial, fun names => disconnectTimedOut_unconfirming names⟩

namespace CommandHandler

/-! The programs that `handleConnect` and `handleDisconnect` become, one for
each action they still have to perform. -/

def confirmLogin (username : Str) (socket : Fd) : Handler :=
  .act (.send socket (connectedAs username)) fun _ => .done ()

def enterName (username : Str) (socket : Fd) : Handler :=
  .act (.registerClient username socket) fun _ => confirmLogin username socket

def checkTaken (username : Str) (socket : Fd) : Handler :=
  .act (.isUsernameTaken username) fun taken =>
    if taken then sendError socket (str "Username already exists") else enterName username socket

def checkBanned (username : Str) (socket : Fd) : Handler :=
  .act (.isBanned username) fun banned =>
    if banned then do
      sendError socket (str "You are banned from this server")
      perform (.close socket)
    else checkTaken username socket

def checkValid (username : Str) (socket : Fd) : Handler :=
  .act .runtimeConfig fun config =>
    if !isValidUsername config username then sendError socket (str "Invalid username")
    else checkBanned username socket

def dropName (username : Str) (socket : Fd) : Handler :=
  .act (.unregisterClient username) fun _ => perform (.close socket)

def lookName (socket : Fd) : Handler :=
  .act (.getUsernameBySocket socket) fun username =>
    if username = [] then .done () else dropName username socket

theorem handleConnect_eq (command name : Str) (rest : List Str) (socket : Fd) :
    handleConnect (command :: name :: rest) socket = checkValid (sanitize name) socket := by
  have enough : ¬ (command :: name :: rest).length < 2 := by simp
  simp only [handleConnect, enough, if_false, nth, List.getElem?_cons_succ, List.getElem?_cons_zero,
    done_bind, perform_bind, pure_eq]
  rfl

theorem handleDisconnect_eq (parsedData : List Str) (socket : Fd) :
    handleDisconnect parsedData socket = lookName socket := by
  simp only [handleDisconnect, perform_bind, pure_eq]
  rfl

theorem disconnectTimedOut_cons (username : Str) (names : List Str) :
    disconnectTimedOut (username :: names) = .act (.getUserSocket username) fun socket =>
      if 0 < socket then lookName socket >>= fun _ => disconnectTimedOut names
      else disconnectTimedOut names := by
  simp only [disconnectTimedOut, handleDisconnect_eq, perform_bind]

/-- All programs that a handler loop on this socket can have left. -/
inductive Stage (socket : Fd) : Handler → Prop where
  | common {rest : Handler} : rest.Only (Action.Common socket) → Stage socket rest
  | checkValid (username : Str) : Stage socket (checkValid username socket)
  | checkBanned (username : Str) : Stage socket (checkBanned username socket)
  | checkTaken (username : Str) : Stage socket (checkTaken username socket)
  | enterName (username : Str) : Stage socket (enterName username socket)
  | confirmLogin (username : Str) : Stage socket (confirmLogin username socket)
  | failing : Stage socket (handleReceiveFailure socket)
  | lookName : Stage socket (lookName socket)
  | dropName (username : Str) : Stage socket (dropName username socket)

/-- A message starts a login, a logout, or something harmless. -/
theorem handleMessage_quiet_cases (raw : Str) (socket : Fd) :
    (handleMessage raw socket).Only Action.Quiet ∧
        (handleMessage raw socket).Only Action.Unconfirming ∨
      (∃ username, handleMessage raw socket = checkValid username socket) ∨
      handleMessage raw socket = lookName socket := by
  have handled := handleMessage_handled raw socket
  generalize handleMessage raw socket = program at handled ⊢
  cases handled with
  | invalid => exact .inl ⟨trivial, trivial⟩
  | unknown => exact .inl ⟨⟨trivial, fun _ => trivial⟩, sendError_unconfirming socket _⟩
  | @connect arguments =>
    cases arguments with
    | nil =>
      rw [handleConnect_short (by simp)]
      exact .inl ⟨trivial, trivial⟩
    | cons name rest => exact .inr (.inl ⟨_, handleConnect_eq ..⟩)
  | disconnect => exact .inr (.inr (handleDisconnect_eq ..))
  | sendMessage =>
    exact .inl ⟨handleSendMessage_quiet _ socket, handleSendMessage_unconfirming _ socket⟩
  | ping =>
    have pong : str "PONG" ≠ confirmation := by decide
    exact .inl ⟨⟨trivial, fun _ => trivial⟩, ⟨pong, fun _ => trivial⟩⟩
  | pong => exact .inl ⟨quiet_of_inert (handlePong_inert _ socket), handlePong_unconfirming _ socket⟩
  | listUsers =>
    have users : str "USER" ≠ confirmation := by decide
    exact .inl ⟨⟨trivial, fun _ => ⟨trivial, fun _ => trivial⟩⟩,
      ⟨trivial, fun _ => ⟨users, fun _ => trivial⟩⟩⟩
  | getLog =>
    exact .inl ⟨quiet_of_inert (handleGetLog_inert _ socket), handleGetLog_unconfirming _ socket⟩

theorem handleMessage_cases (raw : Str) (socket : Fd) :
    (handleMessage raw socket).Only (Action.Common socket) ∨
      (∃ username, handleMessage raw socket = checkValid username socket) ∨
      handleMessage raw socket = lookName socket := by
  rcases handleMessage_quiet_cases raw socket with ⟨quiet, unconfirming⟩ | begins
  · exact .inl (common_of_quiet quiet unconfirming)
  · exact .inr begins

theorem handleMessage_stage (raw : Str) (socket : Fd) : Stage socket (handleMessage raw socket) := by
  rcases handleMessage_cases raw socket with only | ⟨username, same⟩ | same
  · exact .common only
  · exact same ▸ .checkValid username
  · exact same ▸ .lookName

theorem sendError_common (socket : Fd) (error : Str) :
    (sendError socket error).Only (Action.Common socket) :=
  common_of_quiet ⟨trivial, fun _ => trivial⟩ (sendError_unconfirming socket error)

/-- An action leads from one stage to another, whatever it returns. -/
theorem Stage.next {socket : Fd} {β : Type} {action : Action β} {following : β → Handler}
    (stage : Stage socket (.act action following)) (result : β) : Stage socket (following result) := by
  cases stage with
  | common only => exact .common (only.2 result)
  | checkValid username =>
    dsimp only
    split
    · exact .common (sendError_common socket _)
    · exact .checkBanned username
  | checkBanned username =>
    dsimp only
    split
    · refine .common ((sendError_common socket _).bind fun _ => ?_)
      exact ⟨⟨trivial, rfl⟩, fun _ => trivial⟩
    · exact .checkTaken username
  | checkTaken username =>
    dsimp only
    split
    · exact .common (sendError_common socket _)
    · exact .enterName username
  | enterName username => exact .confirmLogin username
  | confirmLogin => exact .common trivial
  | failing =>
    change Stage socket (if result ≠ [] then handleDisconnect [] socket else .done ())
    rw [handleDisconnect_eq]
    split
    · exact .lookName
    · exact .common trivial
  | lookName =>
    dsimp only
    split
    · exact .common trivial
    · exact .dropName _
  | dropName => exact .common ⟨⟨trivial, rfl⟩, fun _ => trivial⟩

theorem registering_of_common {socket : Fd} {rest : Handler} (only : rest.Only (Action.Common socket)) :
    registering rest = none := by
  cases rest with
  | done => rfl
  | act action next =>
    have first := only.1.1
    cases action with
    | registerClient => exact first.elim
    | _ => rfl

theorem sending_of_common {socket : Fd} {rest : Handler} (only : rest.Only (Action.Common socket))
    (username : Str) : sending rest ≠ some (connectedAs username) := by
  cases rest with
  | done => exact (Option.some_ne_none _).symm
  | act action next =>
    have first := only.1.1
    cases action with
    | send number message =>
      intro same
      exact first (Option.some.inj same ▸ take_connectedAs username)
    | _ => exact (Option.some_ne_none _).symm

end CommandHandler

namespace Threads
open CommandHandler

/-- Each program that is still running is one that the server can have started. -/
structure Formed (s : Threads) : Prop where
  nonneg : ∀ {i : ConnId} {worker : Worker}, s.workers[i]? = some worker → 0 ≤ worker.socket
  workers : ∀ {i : ConnId} {worker : Worker}, s.workers[i]? = some worker →
    Stage worker.socket worker.rest
  tasks : ∀ {program : Handler}, program ∈ s.tasks → program.Only Action.Unconfirming

theorem advanced_of_worker {s : Threads} {i : ConnId} {worker : Worker}
    (present : s.workers[i]? = some worker) : s.advanced (.advance i) = worker.rest := by
  simp only [advanced, present, Option.map_some, Option.getD_some]

theorem advanced_of_task {s : Threads} {k : Nat} {program : Handler}
    (present : s.tasks[k]? = some program) : s.advanced (.advanceTask k) = program := by
  simp only [advanced, present, Option.getD_some]

theorem rest_of_returned {worker : Worker} (returned : worker.live = false) :
    worker.rest = .done () := by
  obtain ⟨socket, activity⟩ := worker
  cases activity with
  | returned => rfl
  | receiving | running => cases returned

theorem live_of_running {worker : Worker} (busy : worker.rest ≠ .done ()) : worker.live = true := by
  by_contra returned
  exact busy (rest_of_returned (Bool.not_eq_true _ ▸ returned))

/-- A loop or a task performs the action. -/
theorem performer {s : Threads} {move : Move} {β : Type} {action : Action β} {next : β → Handler}
    (advances : s.advanced move = .act action next) :
    (∃ i worker, move = .advance i ∧ s.workers[i]? = some worker ∧ worker.rest = .act action next) ∨
      ∃ k, move = .advanceTask k ∧ s.tasks[k]? = some (.act action next) := by
  cases move with
  | advance i =>
    left
    cases found : s.workers[i]? with
    | none => simp [advanced, found] at advances
    | some worker => exact ⟨i, worker, rfl, found, (advanced_of_worker found).symm.trans advances⟩
  | advanceTask k =>
    right
    cases found : s.tasks[k]? with
    | none => simp [advanced, found] at advances
    | some program =>
      have same : program = .act action next := (advanced_of_task found).symm.trans advances
      exact ⟨k, rfl, same ▸ found⟩
  | accept | receive | receiveFailure | start => cases advances

/-- After a worker has moved on, the others are what they were. -/
theorem workers_cases {s : Threads} {i j : ConnId} {old worker : Worker} {activity : Activity}
    (present : s.workers[i]? = some old)
    (found : (s.setActivity i activity).workers[j]? = some worker) :
    j = i ∧ worker = ⟨old.socket, activity⟩ ∨ j ≠ i ∧ s.workers[j]? = some worker := by
  by_cases same : j = i
  · subst same
    rw [workers_setActivity activity present] at found
    exact .inl ⟨rfl, (Option.some.inj found).symm⟩
  · simp only [setActivity, List.getElem?_modify_ne _ _ (Ne.symm same)] at found
    exact .inr ⟨same, found⟩

/-- The worker of a new connection comes last. -/
theorem workers_append {workers : List Worker} {new worker : Worker} {j : ConnId}
    (found : (workers ++ [new])[j]? = some worker) :
    workers[j]? = some worker ∨ j = workers.length ∧ worker = new := by
  by_cases old : j < workers.length
  · rw [List.getElem?_append_left old] at found
    exact .inl found
  · have last : j = workers.length := by
      have inside := (List.getElem?_eq_some_iff.mp found).1
      rw [List.length_append, List.length_singleton] at inside
      exact Nat.le_antisymm (Nat.le_of_lt_succ inside) (Nat.le_of_not_lt old)
    subst last
    rw [List.getElem?_concat_length] at found
    exact .inr ⟨rfl, (Option.some.inj found).symm⟩

theorem Formed.setActivity {s : Threads} (formed : s.Formed) {i : ConnId} {old : Worker}
    {activity : Activity} (present : s.workers[i]? = some old)
    (stage : Stage old.socket (Worker.rest ⟨old.socket, activity⟩)) :
    (s.setActivity i activity).Formed where
  nonneg := by
    intro j worker found
    rcases workers_cases present found with ⟨_, rfl⟩ | ⟨_, other⟩
    · have kept := formed.nonneg present
      exact kept
    · exact formed.nonneg other
  workers := by
    intro j worker found
    rcases workers_cases present found with ⟨_, rfl⟩ | ⟨_, other⟩
    · exact stage
    · exact formed.workers other
  tasks := formed.tasks

theorem step_formed {s after : Threads} {label : Env × Move} (formed : s.Formed)
    (stepped : step s label = some after) : after.Formed := by
  obtain ⟨env, move⟩ := label
  obtain ⟨_, stepped⟩ := step_cases stepped
  have moved : ∀ w : World, Formed { s with world := w } := fun _ =>
    ⟨formed.nonneg, formed.workers, formed.tasks⟩
  have idle : ∀ {socket : Fd}, Stage socket (.done ()) := .common trivial
  cases stepped with
  | @accept socket nonneg free =>
    constructor
    · intro j worker found
      rcases workers_append found with old | ⟨_, rfl⟩
      · exact formed.nonneg old
      · exact nonneg
    · intro j worker found
      rcases workers_append found with old | ⟨_, rfl⟩
      · exact formed.workers old
      · exact idle
    · exact formed.tasks
  | receive reads => exact formed.setActivity reads (handleMessage_stage _ _)
  | receiveFailure reads => exact formed.setActivity reads .failing
  | perform present =>
    have stage : Stage _ (.act _ _) := formed.workers present
    exact (moved _).setActivity present (stage.next _)
  | @finish i socket last present =>
    apply formed.setActivity present
    cases last <;> exact idle
  | @start task =>
    refine ⟨formed.nonneg, formed.workers, fun member => ?_⟩
    rcases List.mem_append.mp member with old | new
    · exact formed.tasks old
    · exact List.mem_singleton.mp new ▸ task.program_unconfirming
  | performTask present =>
    refine ⟨formed.nonneg, formed.workers, fun member => ?_⟩
    rcases List.mem_or_eq_of_mem_set member with old | rfl
    · exact formed.tasks old
    · exact (formed.tasks (List.mem_of_getElem? present)).2 _
  | finishTask =>
    exact ⟨formed.nonneg, formed.workers, fun member => formed.tasks (List.mem_of_mem_eraseIdx member)⟩

theorem initial_formed (banlist : Option Str) : (initial banlist).Formed := by
  refine ⟨fun found => ?_, fun found => ?_, fun member => absurd member List.not_mem_nil⟩
  · cases found
  · cases found

end Threads
end SocketMessaging
