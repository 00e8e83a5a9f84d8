import Mathlib.Data.List.Forall2
import SocketMessaging.Library.Emission
import SocketMessaging.Server.HandlerSpecs
import SocketMessaging.Server.Threads

/-! Each handler loop in dialogue with its client. Whatever the other threads do in
between, the loop answers every request that calls for an answer once, in order and
before it reads the next one. What the dispatcher, the heartbeat and the administrator
send to the same client is not part of the dialogue. -/
namespace SocketMessaging
open Prog Transition Utils MessageParser

/-- What a handler passes to `NetworkStream::send`, and for which socket. -/
def Action.said : ∀ {β : Type}, Action β → Option (Fd × Str)
  | _, .send socket message => some (socket, message)
  | _, _ => none

namespace CommandHandler

/-- The answers to a command with its arguments. -/
inductive Answers : Str → List Str → Str → Prop where
  | connected {name : Str} {rest : List Str} : Answers (str "CONNECT") (name :: rest)
      (build (str "OK") [str "Connected as " ++ sanitize name])
  | refused {name : Str} {rest : List Str} {reason : Str} :
      reason ∈ [str "Invalid username", str "You are banned from this server",
        str "Username already exists"] →
      Answers (str "CONNECT") (name :: rest) (build (str "ERROR") [reason])
  | malformed {arguments : List Str} : arguments.length < 3 → Answers (str "SEND") arguments
      (build (str "ERROR") [str "Malformed message: missing fields"])
  | unsent {recipient subject body : Str} {rest : List Str} {reason : Str} :
      reason ∈ [str "Not authenticated", str "Subject too long (max " ++
        toDecimal Constants.maxSubjectLength ++ str " chars)"] ∨
      (isValidBody (sanitize body) = false ∧ reason = str "Body is empty") ∨
      (sanitize recipient ≠ str "all" ∧
        reason ∈ [str "User '" ++ sanitize recipient ++ str "' does not exist or is offline",
          str "Failed to send message: queue full or dispatcher error"]) →
      Answers (str "SEND") (recipient :: subject :: body :: rest) (build (str "ERROR") [reason])
  | broadcast {recipient subject body : Str} {rest : List Str} : isValidBody (sanitize body) = true →
      sanitize recipient = str "all" → Answers (str "SEND") (recipient :: subject :: body :: rest)
        (build (str "OK") [str "Broadcast sent"])
  | sent {recipient subject body : Str} {rest : List Str} : isValidBody (sanitize body) = true →
      sanitize recipient ≠ str "all" → Answers (str "SEND") (recipient :: subject :: body :: rest)
        (build (str "OK") [str "Message sent"])
  | pong {arguments : List Str} : Answers (str "PING") arguments (str "PONG\n")
  | users {arguments : List Str} (clients : List (Str × Fd)) :
      Answers (str "LIST_USERS") arguments (build (str "USERS") [joinUsers clients])
  | log {arguments : List Str} (text : Str) :
      Answers (str "GET_LOG") arguments (build (str "LOG") [text])
  | noLog {arguments : List Str} : Answers (str "GET_LOG") arguments
      (build (str "ERROR") [str "Log file not available"])
  | unknown {command : Str} {arguments : List Str} : commands.lookup command = none →
      Answers command arguments (build (str "ERROR") [str "Unknown command: " ++ command])

/-- Exactly one message is said, on this socket. -/
def Once (socket : Fd) (P : Str → Prop) (_ : Unit) (said : List (Fd × Str)) : Prop :=
  ∃ reply, said = [(socket, reply)] ∧ P reply

variable {socket : Fd} {P : Str → Prop}

theorem sendResponse_once {message : Str} (answers : P message) :
    (sendResponse socket message).Emits Action.said (Once socket P) :=
  fun _ => ⟨message, rfl, answers⟩

theorem sendError_once {error : Str} (answers : P (build (str "ERROR") [error])) :
    (sendError socket error).Emits Action.said (Once socket P) :=
  sendResponse_once answers

theorem sendOK_once {message : Str} (nonempty : message ≠ [])
    (answers : P (build (str "OK") [message])) :
    (sendOK socket message).Emits Action.said (Once socket P) := by
  rw [sendOK, if_neg nonempty]
  exact sendResponse_once answers

theorem handleConnect_once (command name : Str) (rest : List Str) :
    (handleConnect (command :: name :: rest) socket).Emits Action.said
      (Once socket (Answers (str "CONNECT") (name :: rest))) := by
  have enough : ¬ (command :: name :: rest).length < 2 := by simp
  simp only [handleConnect, enough, if_false, nth, List.getElem?_cons_succ, List.getElem?_cons_zero,
    done_bind, perform_bind, pure_eq]
  refine (emits_silent rfl).mpr fun config => emits_ite.mpr ⟨fun _ => ?_, fun _ => ?_⟩
  · exact (sendError_once (.refused (by simp))).andReturn
  refine (emits_silent rfl).mpr fun banned => emits_ite.mpr ⟨fun _ => ?_, fun _ => ?_⟩
  · have refused : Answers (str "CONNECT") (name :: rest)
        (build (str "ERROR") [str "You are banned from this server"]) := .refused (by simp)
    refine Emits.bind ((sendError_once refused).weaken fun _ said once => ?_)
    refine (emits_silent rfl).mpr fun _ => ?_
    simpa only [emits_done, List.append_nil] using once
  refine (emits_silent rfl).mpr fun taken => emits_ite.mpr ⟨fun _ => ?_, fun _ => ?_⟩
  · exact (sendError_once (.refused (by simp))).andReturn
  · exact (emits_silent rfl).mpr fun _ => sendResponse_once .connected

theorem queueBroadcast_silent (message : Message) (clients : List (Str × Fd)) :
    (queueBroadcast message clients).Emits Action.said fun _ said => said = [] := by
  induction clients with
  | nil => rfl
  | cons entry clients ih =>
    obtain ⟨username, socket⟩ := entry
    unfold queueBroadcast
    refine emits_ite.mpr ⟨fun _ => (emits_silent rfl).mpr fun _ => ih, fun _ => ih⟩

theorem exists_of_three {arguments : List Str} (enough : 3 ≤ arguments.length) :
    ∃ recipient subject body rest, arguments = recipient :: subject :: body :: rest := by
  obtain ⟨recipient, arguments, rfl⟩ := List.exists_cons_of_length_pos (by omega : 0 < arguments.length)
  rw [List.length_cons] at enough
  obtain ⟨subject, arguments, rfl⟩ := List.exists_cons_of_length_pos (by omega : 0 < arguments.length)
  rw [List.length_cons] at enough
  obtain ⟨body, rest, rfl⟩ := List.exists_cons_of_length_pos (by omega : 0 < arguments.length)
  exact ⟨recipient, subject, body, rest, rfl⟩

theorem handleSendMessage_once (command : Str) (arguments : List Str) :
    (handleSendMessage (command :: arguments) socket).Emits Action.said
      (Once socket (Answers (str "SEND") arguments)) := by
  by_cases short : arguments.length < 3
  · have few : (command :: arguments).length < 4 := Nat.succ_lt_succ short
    rw [handleSendMessage, if_pos few]
    exact (sendError_once (.malformed short)).andReturn
  · obtain ⟨recipient, subject, body, rest, rfl⟩ :
        ∃ recipient subject body rest, arguments = recipient :: subject :: body :: rest :=
      exists_of_three (Nat.not_lt.mp short)
    have enough : ¬ (command :: recipient :: subject :: body :: rest).length < 4 := by simp
    simp only [handleSendMessage, enough, if_false, nth, List.getElem?_cons_succ,
      List.getElem?_cons_zero, done_bind, perform_bind, pure_eq]
    refine (emits_silent rfl).mpr fun sender => emits_ite.mpr ⟨fun _ => ?_, fun _ => ?_⟩
    · exact (sendError_once (.unsent (.inl (by simp)))).andReturn
    refine (emits_silent rfl).mpr fun _ => (emits_silent rfl).mpr fun clock =>
      (emits_silent rfl).mpr fun config => emits_ite.mpr ⟨fun _ => ?_, fun _ => ?_⟩
    · exact (sendError_once (.unsent (.inl (by simp)))).andReturn
    refine emits_ite.mpr ⟨fun empty => ?_, fun present => ?_⟩
    · exact (sendError_once (.unsent (.inr (.inl ⟨by simpa using empty, rfl⟩)))).andReturn
    have present : isValidBody (sanitize body) = true := by simpa using present
    refine emits_ite.mpr ⟨fun all => (emits_silent rfl).mpr fun clients => ?_, fun one => ?_⟩
    · have answer : Answers (str "SEND") (recipient :: subject :: body :: rest)
          (build (str "OK") [str "Broadcast sent"]) := .broadcast present all
      refine Emits.bind ((queueBroadcast_silent _ clients).weaken fun _ said nothing => ?_)
      have text : str "Broadcast sent" ≠ [] := by decide
      subst nothing
      exact (sendOK_once text answer).andReturn
    refine (emits_silent rfl).mpr fun recipientSocket => emits_ite.mpr ⟨fun _ => ?_, fun _ => ?_⟩
    · exact (sendError_once (.unsent (.inr (.inr ⟨one, by simp⟩)))).andReturn
    refine (emits_silent rfl).mpr fun queued => emits_ite.mpr ⟨fun _ => ?_, fun _ => ?_⟩
    · exact sendOK_once (by decide) (.sent present one)
    · exact sendError_once (.unsent (.inr (.inr ⟨one, by simp⟩)))

theorem handleListUsers_once (parsedData arguments : List Str) :
    (handleListUsers parsedData socket).Emits Action.said
      (Once socket (Answers (str "LIST_USERS") arguments)) :=
  (emits_silent rfl).mpr fun clients => sendResponse_once (.users clients)

theorem handleGetLog_once (parsedData arguments : List Str) :
    (handleGetLog parsedData socket).Emits Action.said
      (Once socket (Answers (str "GET_LOG") arguments)) := by
  refine (emits_silent rfl).mpr fun log => ?_
  cases log with
  | none => exact sendError_once .noLog
  | some content =>
    refine emits_ite.mpr ⟨fun _ => ?_, fun _ => ?_⟩
    · exact (sendResponse_once (.log _)).andReturn
    · exact sendResponse_once (.log _)

theorem handleDisconnect_silent (parsedData : List Str) :
    (handleDisconnect parsedData socket).Emits Action.said fun _ said => said = [] := by
  refine (emits_silent rfl).mpr fun username => emits_ite.mpr ⟨fun _ => rfl, fun _ => ?_⟩
  exact (emits_silent rfl).mpr fun _ => (emits_silent rfl).mpr fun _ => rfl

theorem handlePong_silent (parsedData : List Str) :
    (handlePong parsedData socket).Emits Action.said fun _ said => said = [] := by
  refine (emits_silent rfl).mpr fun username => emits_ite.mpr ⟨fun _ => rfl, fun _ => ?_⟩
  exact (emits_silent rfl).mpr fun _ => rfl

theorem handleReceiveFailure_silent :
    (handleReceiveFailure socket).Emits Action.said fun _ said => said = [] := by
  refine (emits_silent rfl).mpr fun username => emits_ite.mpr ⟨fun _ => ?_, fun _ => rfl⟩
  exact handleDisconnect_silent []

/-- Whether a frame is a request that calls for an answer: not if it cannot be parsed,
if it is a DISCONNECT or a PONG, or if it is a CONNECT without a name. -/
def demands (raw : Str) : Bool :=
  let parsed := parse raw
  parsed.isValid && !(parsed.command = str "DISCONNECT" || parsed.command = str "PONG" ||
    (parsed.command = str "CONNECT" && parsed.arguments.isEmpty))

/-- What a handler says to a frame. -/
theorem handleMessage_answers (raw : Str) (socket : Fd) :
    (handleMessage raw socket).Emits Action.said fun value said =>
      if demands raw then
        Once socket (Answers (parse raw).command (parse raw).arguments) value said
      else said = [] := by
  have handled := handleMessage_handled raw socket
  generalize handleMessage raw socket = program at handled ⊢
  have answered : ∀ {command arguments}, parse raw = ⟨command, arguments, true⟩ →
      demands raw = true → program.Emits Action.said (Once socket (Answers command arguments)) →
      program.Emits Action.said fun value said => if demands raw then
        Once socket (Answers (parse raw).command (parse raw).arguments) value said
      else said = [] := by
    intro command arguments shape asks once
    simpa only [shape, asks, if_true] using once
  have silent : demands raw = false → program.Emits Action.said (fun _ said => said = []) →
      program.Emits Action.said fun value said => if demands raw then
        Once socket (Answers (parse raw).command (parse raw).arguments) value said
      else said = [] := by
    intro asks nothing
    simpa only [asks, Bool.false_eq_true, if_false] using nothing
  cases handled with
  | invalid invalid => exact silent (by simp [demands, invalid]) rfl
  | @unknown command arguments shape absent =>
    have other : ∀ known, (commands.lookup known).isSome → command ≠ known := by
      rintro known present rfl
      exact absurd present (absent ▸ Bool.false_ne_true)
    have asks : demands raw = true := by
      simp [demands, shape, other (str "DISCONNECT") rfl, other (str "PONG") rfl,
        other (str "CONNECT") rfl]
    exact answered shape asks (sendError_once (.unknown absent))
  | @connect arguments shape =>
    cases arguments with
    | nil => exact silent (by simp [demands, shape]) (by rw [handleConnect_short (by simp)]; rfl)
    | cons name rest =>
      exact answered shape (by simp [demands, shape, str]) (handleConnect_once _ name rest)
  | disconnect shape => exact silent (by simp [demands, shape]) (handleDisconnect_silent _)
  | sendMessage shape =>
    exact answered shape (by simp [demands, shape, str]) (handleSendMessage_once _ _)
  | ping shape => exact answered shape (by simp [demands, shape, str]) (sendResponse_once .pong)
  | pong shape => exact silent (by simp [demands, shape]) (handlePong_silent _)
  | listUsers shape =>
    exact answered shape (by simp [demands, shape, str]) (handleListUsers_once _ _)
  | getLog shape => exact answered shape (by simp [demands, shape, str]) (handleGetLog_once _ _)

end CommandHandler

/-- The threads, with what each handler loop has received and what it has said. -/
structure Dialogue where
  threads : Threads
  asked : ConnId → List Str
  answered : ConnId → List (Fd × Str)

namespace Dialogue
open CommandHandler
variable {s after : Dialogue} {i j : ConnId} {worker : Worker}

/-- What the next action of a program says. -/
def nextSaid : Handler → List (Fd × Str)
  | .act action _ => action.said.toList
  | .done _ => []

def record (s : Dialogue) (move : Move) (after : Threads) : Dialogue :=
  match move with
  | .receive i raw =>
    { s with threads := after, asked := Function.update s.asked i (s.asked i ++ [raw]) }
  | .advance i =>
    { s with
      threads := after
      answered := Function.update s.answered i (s.answered i ++ nextSaid (s.threads.advanced move)) }
  | _ => { s with threads := after }

/-- The threads move, and the dialogues are recorded. -/
def step (s : Dialogue) (label : Env × Move) : Option Dialogue :=
  (Threads.step s.threads label).map (s.record label.2)

/-- The server just started, with the given content of the banlist file. -/
def initial (banlist : Option Str) : Dialogue where
  threads := Threads.initial banlist
  asked := fun _ => []
  answered := fun _ => []

/-- The reply is one to this request, on this socket. -/
def Replies (socket : Fd) (raw : Str) (reply : Fd × Str) : Prop :=
  reply.1 = socket ∧ Answers (parse raw).command (parse raw).arguments reply.2

/-- Once the messages `said` are said as well, every request has its answer. -/
def Settles (s : Dialogue) (i : ConnId) (socket : Fd) (_ : Unit) (said : List (Fd × Str)) : Prop :=
  List.Forall₂ (Replies socket) ((s.asked i).filter demands) (s.answered i ++ said) ∧
    said.length ≤ 1

/-- Each loop is going to settle its dialogue, and loops that do not exist yet have none. -/
structure Conversing (s : Dialogue) : Prop where
  settles : ∀ {i : ConnId} {worker : Worker}, s.threads.workers[i]? = some worker →
    worker.rest.Emits Action.said (s.Settles i worker.socket)
  ahead : ∀ {i : ConnId}, s.threads.workers.length ≤ i → s.asked i = [] ∧ s.answered i = []

/-- One loop moves on while the others and their dialogues stay as they are. -/
theorem Conversing.setActivity (conversing : s.Conversing)
    (present : s.threads.workers[i]? = some worker) {activity : Activity}
    (workers : after.threads.workers = (s.threads.setActivity i activity).workers)
    (others : ∀ j, j ≠ i → after.asked j = s.asked j ∧ after.answered j = s.answered j)
    (settles : (Worker.rest ⟨worker.socket, activity⟩).Emits Action.said
      (after.Settles i worker.socket)) : after.Conversing where
  settles := by
    intro j other there
    rw [workers] at there
    by_cases same : j = i
    · subst same
      rw [Threads.workers_setActivity activity present] at there
      obtain rfl := Option.some.inj there
      exact settles
    · have elsewhere : s.threads.workers[j]? = some other := by
        rw [← there]
        exact (List.getElem?_modify_ne _ _ (Ne.symm same)).symm
      obtain ⟨asked, answered⟩ := others j same
      refine (conversing.settles elsewhere).weaken fun _ said settled => ?_
      simpa only [Settles, asked, answered] using settled
  ahead := by
    intro j outside
    have length : after.threads.workers.length = s.threads.workers.length := by
      rw [workers]
      exact List.length_modify _ _ _
    have apart : j ≠ i := by
      rintro rfl
      have inside := (List.getElem?_eq_some_iff.mp present).1
      omega
    obtain ⟨asked, answered⟩ := others j apart
    rw [asked, answered]
    exact conversing.ahead (length ▸ outside)

theorem step_conversing (conversing : s.Conversing) {env : Env} {move : Move}
    (stepped : step s (env, move) = some after) : after.Conversing := by
  obtain ⟨threads, moved, rfl⟩ := Option.map_eq_some_iff.mp stepped
  obtain ⟨_, moved⟩ := Threads.step_cases moved
  cases moved with
  | @accept socket nonneg free =>
    refine ⟨fun {i worker} there => ?_, fun {i} outside => ?_⟩
    · change (s.threads.workers ++ [⟨socket, .receiving⟩])[i]? = some worker at there
      by_cases inside : i < s.threads.workers.length
      · rw [List.getElem?_append_left inside] at there
        exact conversing.settles there
      · obtain ⟨asked, answered⟩ := conversing.ahead (Nat.not_lt.mp inside)
        rw [List.getElem?_append_right (Nat.not_lt.mp inside)] at there
        obtain rfl := List.mem_singleton.mp (List.mem_of_getElem? there)
        change List.Forall₂ _ ((s.asked i).filter demands) (s.answered i ++ []) ∧ _
        rw [asked, answered]
        exact ⟨.nil, Nat.zero_le 1⟩
    · have longer : s.threads.workers.length ≤
          (s.threads.workers ++ [(⟨socket, .receiving⟩ : Worker)]).length :=
        List.length_append ▸ Nat.le_add_right _ _
      exact conversing.ahead (Nat.le_trans longer outside)
  | @receive i raw socket conn reads used admissible =>
    refine conversing.setActivity reads rfl (fun j apart => ?_) ?_
    · exact ⟨Function.update_of_ne apart _ _, rfl⟩
    · have settled : s.Settles i socket () [] := conversing.settles reads
      have asked : Function.update s.asked i (s.asked i ++ [raw]) i = s.asked i ++ [raw] :=
        Function.update_self _ _ _
      refine (handleMessage_answers raw socket).weaken fun _ said answers => ?_
      simp only [Settles, List.append_nil] at settled
      simp only [Settles, record, asked, List.filter_append, List.filter_singleton]
      split at answers
      · obtain ⟨reply, rfl, answer⟩ := answers
        rename_i asks
        rw [asks]
        exact ⟨List.rel_append settled.1 (.cons ⟨rfl, answer⟩ .nil), Nat.le_refl 1⟩
      · rename_i asks
        subst answers
        simpa [asks] using settled.1
  | @receiveFailure i socket reads =>
    refine conversing.setActivity reads rfl (fun j apart => ⟨rfl, rfl⟩) ?_
    refine handleReceiveFailure_silent.weaken fun _ said nothing => ?_
    exact nothing ▸ conversing.settles reads
  | @perform i socket last β action next present =>
    have next_said : nextSaid (s.threads.advanced (.advance i)) = action.said.toList := by
      simp only [Threads.advanced, present, Option.map_some, Option.getD_some, Worker.rest, nextSaid]
    refine conversing.setActivity present rfl (fun j apart => ?_) ?_
    · exact ⟨rfl, Function.update_of_ne apart _ _⟩
    · refine (conversing.settles present (exec env action s.threads.world).1).weaken
        fun _ said settled => ?_
      have answered : Function.update s.answered i (s.answered i ++ action.said.toList) i =
          s.answered i ++ action.said.toList := Function.update_self _ _ _
      simp only [Settles, record, next_said, answered, List.append_assoc]
      exact ⟨settled.1, Nat.le_trans (List.length_append ▸ Nat.le_add_left _ _) settled.2⟩
  | @finish i socket last present =>
    have nothing : nextSaid (s.threads.advanced (.advance i)) = [] := by
      simp only [Threads.advanced, present, Option.map_some, Option.getD_some, Worker.rest, nextSaid]
    have settled : s.Settles i socket () [] := conversing.settles present
    have idle : Worker.rest ⟨socket, if last then .returned else .receiving⟩ = .done () := by
      cases last <;> rfl
    refine conversing.setActivity present rfl (fun j apart => ?_) ?_
    · exact ⟨rfl, Function.update_of_ne apart _ _⟩
    · rw [idle]
      simpa only [emits_done, Settles, record, nothing, List.append_nil, Function.update_self]
        using settled
  | start => exact ⟨conversing.settles, conversing.ahead⟩
  | performTask => exact ⟨conversing.settles, conversing.ahead⟩
  | finishTask => exact ⟨conversing.settles, conversing.ahead⟩

theorem initial_conversing (banlist : Option Str) : (initial banlist).Conversing :=
  ⟨nofun, fun _ => ⟨rfl, rfl⟩⟩

/-- Every run of the threads is recorded. -/
theorem recorded {labels : List (Env × Move)} {t : Threads}
    (run : Run Threads.step Free s.threads labels t) :
    ∃ after, Run step Free s labels after ∧ after.threads = t := by
  generalize begun : s.threads = start at run
  induction run generalizing s with
  | refl => exact ⟨s, .refl s, begun⟩
  | @next _ t _ label _ _ stepped _ ih =>
    subst begun
    have kept : (s.record label.2 t).threads = t := by
      unfold record
      split <;> rfl
    have moved : step s label = some (s.record label.2 t) := by rw [step, stepped, Option.map_some]
    obtain ⟨after, rest, same⟩ := ih kept
    exact ⟨after, .next trivial moved rest, same⟩

/-- However the threads interleave, the replies of a handler loop are, one for each
request that calls for an answer, answers to these requests in their order. At most
the last is outstanding, and none while the loop waits for the next request. -/
theorem requests_answered {banlist : Option Str} {labels : List (Env × Move)}
    (run : Run step Free (initial banlist) labels s)
    (present : s.threads.workers[i]? = some worker) : ∃ outstanding : List (Fd × Str),
      List.Forall₂ (Replies worker.socket) ((s.asked i).filter demands)
        (s.answered i ++ outstanding) ∧ outstanding.length ≤ 1 ∧
      (worker.activity = .receiving ∨ worker.activity = .returned → outstanding = []) := by
  have conversing : s.Conversing :=
    run.invariant (fun held _ stepped => step_conversing held stepped) (initial_conversing banlist)
  have settles := conversing.settles present
  obtain ⟨socket, activity⟩ := worker
  cases activity with
  | receiving | returned =>
    have settled : s.Settles i socket () [] := settles
    exact ⟨[], settled.1, settled.2, fun _ => rfl⟩
  | running last rest =>
    obtain ⟨_, outstanding, settled⟩ := settles.exists (exec .plain) s.threads.world
    refine ⟨outstanding, settled.1, settled.2, ?_⟩
    rintro (idle | idle) <;> cases idle

/-- While ann's login is under way the other connection is answered. -/
theorem requests_answered_of_ann : ∃ (s : Dialogue) (worker : Worker),
    s.asked 0 = [str "PONG", str "CONNECT;ann"] ∧ s.answered 0 = [] ∧
    s.answered 1 = [(6, str "PONG\n")] ∧ worker.socket = 5 ∧
    ∃ outstanding : List (Fd × Str), List.Forall₂ (Replies worker.socket)
      ((s.asked 0).filter demands) (s.answered 0 ++ outstanding) ∧ outstanding.length ≤ 1 ∧
      (worker.activity = .receiving ∨ worker.activity = .returned → outstanding = []) := by
  obtain ⟨s, ran, asked, answered, other, socket⟩ := evaluated
    (o := execute step (initial none) (Threads.plainMoves [.accept 5, .receive 0 (str "PONG"),
      .advance 0, .advance 0, .accept 6, .receive 0 (str "CONNECT;ann"), .advance 0, .advance 0,
      .receive 1 (str "PING"), .advance 1, .advance 0, .advance 1]))
    (P := fun s => s.asked 0 = [str "PONG", str "CONNECT;ann"] ∧ s.answered 0 = [] ∧
      s.answered 1 = [(6, str "PONG\n")] ∧ s.threads.workers[0]?.map Worker.socket = some 5)
    (by decide)
  obtain ⟨worker, present, same⟩ := Option.map_eq_some_iff.mp socket
  exact ⟨s, worker, asked, answered, other, same,
    requests_answered (execute_run _ ran) present⟩

end Dialogue
end SocketMessaging
