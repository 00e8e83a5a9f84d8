import SocketMessaging.Server.Footprints
import SocketMessaging.Server.Interleaving
import SocketMessaging.Server.Mail

/-! The running server refines the mail exchange. Every operation but the
dispatcher's changes logins, posts letters and writes notices; a round of the
dispatcher settles the letter at the front of the queue. -/
namespace SocketMessaging
open Prog Transition Utils MessageParser CommandHandler Dispatcher Sessions

/-- The exchange as the server's world shows it. -/
structure Carried (mail : Mail) (w : World) : Prop where
  carries : Carries mail w.owner fun conn => w.framesTaken conn
  queue : mail.queue = w.queue
  sent : w.server.totalMessagesSent = mail.settled.countP fun entry => entry.2.arrived

/-- The frame is stored by its reader with the texts of the message. -/
structure Message.Clean (message : Message) : Prop where
  sound : message.Sound
  subject : (59 : UInt8) ∉ message.subject
  body : (59 : UInt8) ∉ message.body

theorem Message.Clean.texts_eq {message : Message} (clean : message.Clean) :
    messageTexts (formattedMessage message) = some message.texts := by
  have fields := formattedMessage_free clean.sound clean.subject clean.body
  have read : parse (formattedMessage message) = _ := MessageHandler.parse_message fields
  simp only [messageTexts, read]
  rfl

theorem CommandHandler.clean_of_fresh {env : Env} {w : World} {raw : Str} {socket : Fd}
    {message : Message} (sound : w.Sound) (connected : 0 ≤ socket)
    (fresh : message ∈ ((handleMessage raw socket).run (exec env) w).2.queue.drop w.queue.length) :
    message.Clean := by
  obtain ⟨asked, request, same⟩ := queued_of_fresh sound.rejecting fresh
  obtain ⟨recipient, subject, body, rest, shape, rfl⟩ := sendRequest_eq_some request.request
  have free := parse_free shape
  have unsplit : ∀ {text : Str}, (59 : UInt8) ∈ sanitize text ↔ 59 ∈ text :=
    mem_sanitize (by decide) (by decide)
  constructor
  · exact (handleMessage_sound env sound raw connected).queue message (List.mem_of_mem_drop fresh)
  · rw [same]
    exact unsplit.not.mpr (free subject (by simp))
  · rw [same]
    exact unsplit.not.mpr (free body (by simp))

/-- The action takes nothing from the queue. -/
def Action.Feeds : ∀ {β : Type}, Action β → Prop
  | _, .popMessage => False
  | _, _ => True

/-- The action neither registers anybody nor touches the queue or the count of
messages sent. -/
def Action.Aside : ∀ {β : Type}, Action β → Prop
  | _, .registerClient _ _ => False
  | _, .queueMessage _ => False
  | _, .popMessage => False
  | _, .incrementMessagesSent => False
  | _, _ => True

section Growing
variable {w v : World}

theorem exec_grows (env : Env) {β : Type} {action : Action β} (reject : w.Rejecting)
    (feeds : action.Feeds) : (exec env action w).2.Rejecting ∧
      ∃ messages, (exec env action w).2.queue = w.queue ++ messages := by
  have apart : action.leavesQueue = true → (exec env action w).2.Rejecting ∧
      ∃ messages, (exec env action w).2.queue = w.queue ++ messages := by
    intro leaves
    have same := exec_dispatcher env w leaves
    refine ⟨?_, [], ?_⟩
    · rw [World.Rejecting, same]
      exact reject
    · rw [World.queue, same, List.append_nil]
      rfl
  cases action with
  | queueMessage message =>
    have queued : (exec env (.queueMessage message) w).2 =
        w.setQueue (BoundedQueue.pushAll w.capacity w.queue [message]) :=
      congrArg Prod.snd (World.queueMessage_eq reject message)
    rw [queued, World.queue_setQueue, BoundedQueue.pushAll_eq]
    exact ⟨reject, _, rfl⟩
  | popMessage => exact feeds.elim
  | _ => exact apart rfl

theorem run_grows (env : Env) {program : Handler} (feeds : program.Only Action.Feeds)
    (reject : w.Rejecting) : ∃ messages, (program.run (exec env) w).2.queue = w.queue ++ messages := by
  refine (feeds.keeps (I := fun v : World => v.Rejecting ∧ ∃ messages, v.queue = w.queue ++ messages)
    ?_ ⟨reject, [], (List.append_nil _).symm⟩).2
  rintro β action v admitted ⟨rejecting, before, grown⟩
  obtain ⟨rejecting, messages, grownAgain⟩ := exec_grows env rejecting admitted
  exact ⟨rejecting, before ++ messages, by rw [grownAgain, grown, List.append_assoc]⟩

theorem exec_sent (env : Env) {β : Type} {action : Action β} (w : World) (aside : action.Aside) :
    (exec env action w).2.server.totalMessagesSent = w.server.totalMessagesSent := by
  cases action with
  | registerClient | queueMessage | popMessage | incrementMessagesSent => exact aside.elim
  | send socket message => exact congrArg Server.totalMessagesSent (w.server_send env socket message)
  | pingClients =>
    refine World.pingClients_keeps
      (I := fun v => v.server.totalMessagesSent = w.server.totalMessagesSent) rfl ?_
    intro entry _ v same
    rw [← same]
    change (v.send env entry.2.socket (str "PING\n")).2.server.totalMessagesSent = _
    rw [World.server_send]
  | stop =>
    exact World.stop_keeps (I := fun v => v.server.totalMessagesSent = w.server.totalMessagesSent)
      rfl (fun _ _ _ same => same) fun _ same => same
  | updateClientPong username =>
    simp only [exec, World.mapServer, Server.updateClientPong]
    split <;> rfl
  | banlistRemove username =>
    simp only [exec]
    split <;> rfl
  | _ => rfl

/-- What happens from one world to the other without the dispatcher: some log in,
at names that are free, and some letters are posted. -/
structure Serves (w v : World) : Prop where
  log : ∃ events, v.os.log = w.os.log ++ events ∧ FreshLogins w.owner events
  queue : ∃ messages, v.queue = w.queue ++ messages ∧ ∀ message ∈ messages, message.Clean
  sent : v.server.totalMessagesSent = w.server.totalMessagesSent

theorem Serves.of_aside (env : Env) {program : Handler} (aside : program.Only Action.Aside)
    (w : World) : Serves w (program.run (exec env) w).2 where
  log := by
    obtain ⟨events, grown, none⟩ := run_unregistered (aside.weaken fun action apart => by
      cases action with
      | registerClient => exact apart
      | _ => trivial) env w
    exact ⟨events, grown, freshLogins_of_none none _⟩
  queue := by
    refine ⟨[], ?_, nofun⟩
    rw [List.append_nil]
    refine aside.keeps (I := fun v : World => v.queue = w.queue) (fun action v apart same => ?_) rfl
    have leaves : action.leavesQueue = true := by
      cases action with
      | queueMessage | popMessage => exact apart.elim
      | _ => rfl
    rw [World.queue, exec_dispatcher env v leaves]
    exact same
  sent := aside.keeps (I := fun v => v.server.totalMessagesSent = w.server.totalMessagesSent)
    (fun _ v apart same => (exec_sent env v apart).trans same) rfl

/-- What the exchange does meanwhile. -/
def World.mail (w v : World) : List MailOp :=
  (w.since v).filterMap Event.op ++ (v.queue.drop w.queue.length).map .post

theorem Serves.followed {mail : Mail} (serves : Serves w v) (carried : Carried mail w)
    (tracked : ∃ events, v.os.log = w.os.log ++ events ∧
      v.owner = events.foldl Event.track w.owner) :
    ∃ after, Run (Exchange.step Message.recipient) Free mail (w.mail v) after ∧ Carried after v := by
  obtain ⟨events, grown, fresh⟩ := serves.log
  obtain ⟨others, grownToo, owner⟩ := tracked
  obtain rfl : events = others := List.append_cancel_left (grown.symm.trans grownToo)
  obtain ⟨messages, queue, _⟩ := serves.queue
  obtain ⟨between, followed, carries⟩ := events_followed carried.carries fresh
  refine ⟨{ between with queue := between.queue ++ messages, posted := between.posted ++ messages },
    ?_, ⟨?_, ?_⟩, ?_, ?_⟩
  · rw [World.mail, World.since_eq grown, queue, List.drop_left]
    exact followed.run.trans (posts_followed between messages)
  · exact carries.online.trans owner.symm
  · intro conn
    rw [World.framesTaken_append grown]
    exact carries.boxes conn
  · rw [followed.queue, carried.queue, queue]
  · rw [serves.sent, carried.sent]
    exact congrArg _ followed.settled.symm

end Growing

section Handlers
variable {w : World}

theorem handleDisconnect_aside (parsedData : List Str) (socket : Fd) :
    (handleDisconnect parsedData socket).Only Action.Aside := by
  simp only [handleDisconnect, perform_bind, pure_eq, only_act, only_ite, only_done, only_perform,
    Action.Aside, implies_true, and_self]

theorem handleReceiveFailure_aside (socket : Fd) :
    (handleReceiveFailure socket).Only Action.Aside := by
  refine ⟨trivial, fun username => ?_⟩
  change (if username ≠ [] then handleDisconnect [] socket else pure ()).Only _
  split
  · exact handleDisconnect_aside [] socket
  · trivial

theorem commandLine_aside (line : Str) :
    (AdminCommandHandler.commandLine line).Only Action.Aside :=
  (AdminCommandHandler.commandLine_ofConsole line).weaken fun action ofConsole => by
    cases action with
    | registerClient | queueMessage | popMessage | incrementMessagesSent => exact ofConsole.elim
    | _ => trivial

theorem checkClientTimeouts_aside : checkClientTimeouts.Only Action.Aside :=
  ⟨trivial, disconnectTimedOut_only (fun _ => trivial) (handleDisconnect_aside [])⟩

theorem unregistered_of_unconfirming {program : Handler}
    (unconfirming : program.Only Action.Unconfirming) :
    program.Only (Action.Registers fun _ => False) :=
  unconfirming.weaken fun action only => by
    cases action with
    | registerClient => exact only
    | _ => trivial

/-- What is logged when nobody registers. -/
theorem freshLogins_sent {events : List Event} {socket : Fd} {conn : Option ConnId} {frame : Str}
    (sent : ∀ event ∈ events, ∃ taken, event = .send socket conn frame taken) (last : List Event)
    (silent : ∀ event ∈ last, ∀ username conn, event ≠ .register username conn)
    (owner : Str → Option ConnId) : FreshLogins owner (events ++ last) := by
  refine freshLogins_of_none (fun event member => ?_) owner
  rcases List.mem_append.mp member with first | second
  · obtain ⟨taken, rfl⟩ := sent event first
    exact fun _ _ => nofun
  · exact silent event second

/-- A CONNECT gives the connection a name that nobody is logged in under. -/
theorem handleConnect_logs (env : Env) (command name : Str) (rest : List Str) {socket : Fd}
    {conn : ConnId} (held : w.os.holder socket = some conn) :
    ∃ events, ((handleConnect (command :: name :: rest) socket).run (exec env) w).2.os.log =
      w.os.log ++ events ∧ FreshLogins w.owner events := by
  have replied : ∀ (v : World) (message : Str), ∃ events,
      (v.reply env socket message).os.log = v.os.log ++ events ∧
      ∀ event ∈ events, ∃ taken, event = .send socket (v.os.user socket) message taken :=
    fun v message => v.log_sent env socket message
  rw [handleConnect_run]
  dsimp only
  split_ifs with invalid banned taken
  · obtain ⟨events, grown, sent⟩ := replied w (build (str "ERROR") [str "Invalid username"])
    exact ⟨events ++ [], by rw [grown, List.append_nil], freshLogins_sent sent [] nofun _⟩
  · obtain ⟨events, grown, sent⟩ :=
      replied w (build (str "ERROR") [str "You are banned from this server"])
    let closed := Event.close socket
      ((w.reply env socket (build (str "ERROR") [str "You are banned from this server"])).os.holder
        socket)
    refine ⟨events ++ [closed], ?_, freshLogins_sent sent _ ?_ _⟩
    · rw [← List.append_assoc, ← grown]
      rfl
    · exact fun event member => List.mem_singleton.mp member ▸ fun _ _ => nofun
  · obtain ⟨events, grown, sent⟩ := replied w (build (str "ERROR") [str "Username already exists"])
    exact ⟨events ++ [], by rw [grown, List.append_nil], freshLogins_sent sent [] nofun _⟩
  · obtain ⟨events, grown, sent⟩ := replied (w.registerClient env (sanitize name) socket)
      (build (str "OK") [str "Connected as " ++ sanitize name])
    refine ⟨.register (sanitize name) (w.os.holder socket) :: events, ?_, ?_, ?_⟩
    · rw [grown]
      exact List.append_assoc ..
    · intro username other same
      cases same
      have free : w.table.handleOf (sanitize name) = none := by
        rw [isUsernameTaken_eq] at taken
        simpa using taken
      refine ⟨?_, by rw [held]; exact Option.some_ne_none conn⟩
      rw [World.owner, free]
      rfl
    · have logged := freshLogins_sent sent [] nofun
        (Event.track w.owner (.register (sanitize name) (w.os.holder socket)))
      rwa [List.append_nil] at logged

theorem handleMessage_serves (env : Env) (raw : Str) {socket : Fd} {conn : ConnId}
    (sound : w.Sound) (connected : 0 ≤ socket) (held : w.os.holder socket = some conn) :
    Serves w ((handleMessage raw socket).run (exec env) w).2 where
  log := by
    have quietly : ∀ program : Handler, program.Only Action.Unconfirming →
        ∃ events, (program.run (exec env) w).2.os.log = w.os.log ++ events ∧
          FreshLogins w.owner events := by
      intro program only
      obtain ⟨events, grown, none⟩ := run_unregistered (unregistered_of_unconfirming only) env w
      exact ⟨events, grown, freshLogins_of_none none _⟩
    rcases handleMessage_quiet_cases raw socket with ⟨_, only⟩ | begins
    · exact quietly _ only
    · have handled := handleMessage_handled raw socket
      generalize handleMessage raw socket = program at handled begins ⊢
      cases handled with
      | invalid => exact quietly _ trivial
      | unknown => exact quietly _ (sendError_unconfirming socket _)
      | @connect arguments =>
        cases arguments with
        | nil =>
          rw [handleConnect_short (by simp)]
          exact quietly _ trivial
        | cons name rest => exact handleConnect_logs env _ name rest held
      | disconnect => exact quietly _ (handleDisconnect_unconfirming _ socket)
      | sendMessage => exact quietly _ (handleSendMessage_unconfirming _ socket)
      | pong => exact quietly _ (handlePong_unconfirming _ socket)
      | getLog => exact quietly _ (handleGetLog_unconfirming _ socket)
      | ping =>
        have pong : str "PONG" ≠ confirmation := by decide
        exact quietly _ ⟨pong, fun _ => trivial⟩
      | listUsers =>
        have users : str "USER" ≠ confirmation := by decide
        exact quietly _ ⟨trivial, fun _ => ⟨users, fun _ => trivial⟩⟩
  queue := by
    have feeds : (handleMessage raw socket).Only Action.Feeds :=
      (handleMessage_ofLoop raw socket).weaken fun action ofLoop => by
        cases action with
        | popMessage => exact ofLoop
        | _ => trivial
    obtain ⟨messages, grown⟩ := run_grows env feeds sound.rejecting
    refine ⟨messages, grown, fun message member => ?_⟩
    have fresh : message ∈ ((handleMessage raw socket).run (exec env) w).2.queue.drop
        w.queue.length := by
      rw [grown, List.drop_left]
      exact member
    exact clean_of_fresh sound connected fresh
  sent := by
    have effect := (handleMessage_changed env w raw socket).server
    generalize ((handleMessage raw socket).run (exec env) w).2.server = after at effect ⊢
    cases effect with
    | refreshed present => simp only [Server.updateClientPong, present]
    | _ => rfl

end Handlers
end SocketMessaging
