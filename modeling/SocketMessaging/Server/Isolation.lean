import SocketMessaging.Server.Queueing

/-! What one message of a client can change. Whatever bytes it consists of, it
touches the entries that store its own socket, the queue and the counters, and
nothing at all when nobody is registered for the socket and it asks for no name. -/
namespace SocketMessaging
open Prog Utils MessageParser

theorem Dispatcher.queueMessage_config (message : Message) (d : Dispatcher) :
    (d.queueMessage message).2.config = d.config := by
  unfold queueMessage
  split
  · split <;> rfl
  · rfl

/-- Under any policy only the messages in the queue change. -/
theorem World.queueMessage_setQueue (message : Message) (w : World) :
    ∃ messages, (w.queueMessage message).2 = w.setQueue messages := by
  refine ⟨(w.server.dispatcher.queueMessage message).2.messages, ?_⟩
  have config := Dispatcher.queueMessage_config message w.server.dispatcher
  simp only [queueMessage, setQueue, mapServer, ← config]

namespace CommandHandler

theorem queueBroadcast_setQueue (env : Env) (message : Message) (clients : List (Str × Fd))
    (w : World) : ∃ messages,
      ((queueBroadcast message clients).run (exec env) w).2 = w.setQueue messages := by
  induction clients generalizing w with
  | nil => exact ⟨w.queue, rfl⟩
  | cons entry clients ih =>
    obtain ⟨username, socket⟩ := entry
    unfold queueBroadcast
    split
    · obtain ⟨first, queued⟩ := w.queueMessage_setQueue { message with recipient := username }
      obtain ⟨messages, rest⟩ := ih (w.setQueue first)
      simp only [perform_bind, run_queueMessage, queued]
      exact ⟨messages, rest⟩
    · exact ih w

/-- What one message can do to the members of the server. -/
inductive ServerEffect (env : Env) (w : World) (raw : Str) (socket : Fd) : Server → Prop where
  | none : ServerEffect env w raw socket w.server
  | registered {username : Str} : (parse raw).command = str "CONNECT" →
      w.server.clients.lookup username = none →
      ServerEffect env w raw socket (w.server.registerClient env username socket)
  | unregistered {username : Str} {info : ClientInfo} :
      w.server.clients.lookup username = some info → info.socket = socket →
      ServerEffect env w raw socket (w.server.unregisterClient username)
  | refreshed {username : Str} {info : ClientInfo} :
      w.server.clients.lookup username = some info → info.socket = socket →
      ServerEffect env w raw socket (w.server.updateClientPong env username)
  | counted {username : Str} {info : ClientInfo} :
      w.server.clients.lookup username = some info → info.socket = socket →
      ServerEffect env w raw socket w.countReceived.server
  | queued {username : Str} {info : ClientInfo} {message : Message} {messages : List Message} :
      w.server.clients.lookup username = some info → info.socket = socket →
      WellFormedSend env w raw socket message →
      ServerEffect env w raw socket (w.countReceived.setQueue messages).server

/-- What one message can do to the server's members and the settings. -/
structure Changed (env : Env) (w : World) (raw : Str) (socket : Fd) (after : World) : Prop where
  server : ServerEffect env w raw socket after.server
  runtimeConfig : after.runtimeConfig = w.runtimeConfig

variable {env : Env} {w v : World} {raw : Str} {socket : Fd}

theorem Changed.reply (changed : Changed env w raw socket v) (message : Str) :
    Changed env w raw socket (v.reply env socket message) where
  server := by
    rw [World.server_reply]
    exact changed.server
  runtimeConfig := by
    rw [← changed.runtimeConfig, World.reply, World.send]
    split <;> rfl

theorem Changed.refl : Changed env w raw socket w := ⟨.none, rfl⟩

/-- A name that was found for a socket is stored with it. -/
theorem lookup_of_getUsernameBySocket (known : w.server.getUsernameBySocket env socket ≠ []) :
    ∃ info, w.server.clients.lookup (w.server.getUsernameBySocket env socket) = some info ∧
      info.socket = socket := by
  rcases getUsernameBySocket_cases env socket w with named | ⟨empty, _⟩
  · exact handleOf_eq_some.mp named
  · exact absurd empty known

theorem handleConnect_changed {parsedData : List Str} (connects : (parse raw).command = str "CONNECT") :
    Changed env w raw socket ((handleConnect parsedData socket).run (exec env) w).2 := by
  rcases parsedData with _ | ⟨command, _ | ⟨name, rest⟩⟩
  · rw [handleConnect_short (by decide)]
    exact .refl
  · rw [handleConnect_short (by simp)]
    exact .refl
  · rw [handleConnect_run]
    dsimp only
    split_ifs with invalid banned taken
    · exact Changed.refl.reply _
    · have refused : Changed env w raw socket
          (w.reply env socket (build (str "ERROR") [str "You are banned from this server"])) :=
        Changed.refl.reply _
      exact ⟨refused.server, refused.runtimeConfig⟩
    · exact Changed.refl.reply _
    · have absent : w.server.clients.lookup (sanitize name) = none := by
        simpa [Server.isUsernameTaken] using taken
      have registered : Changed env w raw socket (w.registerClient env (sanitize name) socket) :=
        ⟨.registered connects absent, rfl⟩
      exact registered.reply _

theorem handleDisconnect_changed (parsedData : List Str) :
    Changed env w raw socket ((handleDisconnect parsedData socket).run (exec env) w).2 := by
  rw [handleDisconnect_run]
  dsimp only
  split_ifs with absent
  · exact .refl
  · obtain ⟨info, present, own⟩ := lookup_of_getUsernameBySocket absent
    exact ⟨.unregistered present own, rfl⟩

theorem handlePong_changed (parsedData : List Str) :
    Changed env w raw socket ((handlePong parsedData socket).run (exec env) w).2 := by
  simp only [handlePong, perform_bind, run_getUsernameBySocket, run_ite, pure_eq, run_done,
    run_perform]
  split_ifs with absent
  · exact .refl
  · obtain ⟨info, present, own⟩ := lookup_of_getUsernameBySocket absent
    exact ⟨.refreshed present own, rfl⟩

theorem handleSendMessage_changed {arguments : List Str}
    (shape : parse raw = ⟨str "SEND", arguments, true⟩) : Changed env w raw socket
      ((handleSendMessage (str "SEND" :: arguments) socket).run (exec env) w).2 := by
  rcases arguments with _ | ⟨recipient, _ | ⟨subject, _ | ⟨body, rest⟩⟩⟩
  iterate 3
    · rw [handleSendMessage_short (by simp)]
      exact Changed.refl.reply _
  · have enough : ¬ (str "SEND" :: recipient :: subject :: body :: rest).length < 4 := by simp
    have request : sendRequest env w raw socket =
        some (requested env w socket recipient subject body) := by
      simp only [sendRequest, shape, if_true]
    simp only [handleSendMessage, enough, if_false, nth, List.getElem?_cons_succ,
      List.getElem?_cons_zero, done_bind, perform_bind, run_getUsernameBySocket,
      run_incrementMessagesReceived, run_systemClock, run_runtimeConfig, run_getAllClients,
      run_getUserSocket, run_queueMessage, run_ite, run_bind, sendError_run, pure_eq, run_done,
      sendOK_run env socket (show str "Broadcast sent" ≠ [] by decide),
      sendOK_run env socket (show str "Message sent" ≠ [] by decide)]
    split_ifs with absent badSubject badBody everyone offline room
    · exact Changed.refl.reply _
    all_goals
      obtain ⟨info, present, own⟩ := lookup_of_getUsernameBySocket absent
      have counted : Changed env w raw socket w.countReceived := ⟨.counted present own, rfl⟩
    · exact counted.reply _
    · exact counted.reply _
    all_goals
      have passed : ∀ check : Bool, ¬ (!check) = true → check = true := by decide
      have formed : WellFormedSend env w raw socket
          (requested env w socket recipient subject body) :=
        ⟨request, absent, passed _ badSubject, passed _ badBody⟩
      have queued : ∀ messages, Changed env w raw socket (w.countReceived.setQueue messages) :=
        fun _ => ⟨.queued present own formed, rfl⟩
    · obtain ⟨messages, taken⟩ := queueBroadcast_setQueue env
        (requested env w socket recipient subject body) (w.countReceived.server.getAllClients env)
        w.countReceived
      exact (taken ▸ queued messages).reply _
    · exact counted.reply _
    all_goals
      obtain ⟨messages, taken⟩ := w.countReceived.queueMessage_setQueue
        (requested env w socket recipient subject body)
      exact (taken ▸ queued messages).reply _

theorem handleGetLog_changed (parsedData : List Str) :
    Changed env w raw socket ((handleGetLog parsedData socket).run (exec env) w).2 := by
  simp only [handleGetLog, perform_bind, run_serverLog]
  cases env.serverLog with
  | none => exact Changed.refl.reply _
  | some content =>
    simp only [run_ite]
    split_ifs
    · exact Changed.refl.reply _
    · exact Changed.refl.reply _

theorem handleMessage_changed (env : Env) (w : World) (raw : Str) (socket : Fd) :
    Changed env w raw socket ((handleMessage raw socket).run (exec env) w).2 := by
  have handled := handleMessage_handled raw socket
  generalize handleMessage raw socket = program at handled ⊢
  cases handled with
  | invalid => exact .refl
  | unknown | ping | listUsers => exact Changed.refl.reply _
  | connect shape => exact handleConnect_changed (by rw [shape])
  | disconnect => exact handleDisconnect_changed _
  | sendMessage shape => exact handleSendMessage_changed shape
  | pong => exact handlePong_changed _
  | getLog => exact handleGetLog_changed _

/-- The entry of another socket is not affected. -/
theorem ServerEffect.entries {after : Server} (effect : ServerEffect env w raw socket after)
    {username : Str} {info : ClientInfo} (other : info.socket ≠ socket) :
    after.clients.lookup username = some info ↔ w.server.clients.lookup username = some info := by
  cases effect with
  | none | counted | queued => exact Iff.rfl
  | @registered name connects absent =>
    by_cases same : username = name
    · subst same
      simp only [Server.registerClient, AList.lookup_insert, Option.some.injEq, absent]
      exact ⟨fun new => absurd (congrArg ClientInfo.socket new).symm other,
        fun none => absurd none.symm (Option.some_ne_none _)⟩
    · simp only [Server.registerClient, AList.lookup_insert_ne same]
  | @unregistered name old present own =>
    by_cases same : username = name
    · subst same
      simp only [Server.unregisterClient, AList.lookup_erase, present, Option.some.injEq]
      exact ⟨fun none => absurd none.symm (Option.some_ne_none _), fun own' => absurd (own' ▸ own) other⟩
    · simp only [Server.unregisterClient, AList.lookup_erase_ne same]
  | @refreshed name old present own =>
    simp only [Server.updateClientPong, present]
    by_cases same : username = name
    · subst same
      simp only [AList.lookup_insert, Option.some.injEq, present]
      exact ⟨fun new => absurd (congrArg ClientInfo.socket new ▸ own) other,
        fun own' => absurd (own' ▸ own) other⟩
    · simp only [AList.lookup_insert_ne same]

theorem ServerEffect.bannedUsers {after : Server} (effect : ServerEffect env w raw socket after) :
    after.bannedUsers = w.server.bannedUsers := by
  cases effect with
  | refreshed present => simp only [Server.updateClientPong, present]
  | _ => rfl

/-- Only a CONNECT changes anything for a socket that no entry stores. -/
theorem ServerEffect.eq {after : Server} (effect : ServerEffect env w raw socket after)
    (nobody : ∀ username info, w.server.clients.lookup username = some info → info.socket ≠ socket)
    (other : (parse raw).command ≠ str "CONNECT") : after = w.server := by
  cases effect with
  | none => rfl
  | registered connects => exact absurd connects other
  | unregistered present own | refreshed present own | counted present own =>
    exact absurd own (nobody _ _ present)
  | queued present own => exact absurd own (nobody _ _ present)

end CommandHandler

namespace World

/-- What clients other than the one on this socket can observe is as before. -/
structure Isolated (socket : Fd) (before after : World) : Prop where
  entries : ∀ (username : Str) (info : ClientInfo), info.socket ≠ socket →
    (after.server.clients.lookup username = some info ↔
      before.server.clients.lookup username = some info)
  descriptors : ∀ number, number ≠ socket → after.os.user number = before.os.user number
  bannedUsers : after.server.bannedUsers = before.server.bannedUsers
  runtimeConfig : after.runtimeConfig = before.runtimeConfig

end World

namespace CommandHandler

/-- A message affects nobody but the client that sent it, and nothing at all if
that client is not registered and does not ask to be. -/
theorem handleMessage_isolated (env : Env) (w : World) (raw : Str) (socket : Fd) :
    w.Isolated socket ((handleMessage raw socket).run (exec env) w).2 ∧
      ((∀ username info, w.server.clients.lookup username = some info → info.socket ≠ socket) →
        (parse raw).command ≠ str "CONNECT" →
        ((handleMessage raw socket).run (exec env) w).2.server = w.server) := by
  obtain ⟨effect, config⟩ := handleMessage_changed env w raw socket
  refine ⟨⟨fun username info other => effect.entries other, fun number other => ?_,
    effect.bannedUsers, config⟩, effect.eq⟩
  have released : (w.table.release socket).user number = w.table.user number :=
    Function.update_of_ne other _ _
  change ((handleMessage raw socket).run (exec env) w).2.table.user number = w.table.user number
  have sessions := handleMessage_effect env w raw socket
  generalize ((handleMessage raw socket).run (exec env) w).2.table = after at sessions ⊢
  cases sessions with
  | quiet | registered => rfl
  | banned | loggedOut => exact released

end CommandHandler
end SocketMessaging
