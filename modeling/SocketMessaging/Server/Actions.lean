import SocketMessaging.Library.Program
import SocketMessaging.Server.State

/-! The steps that the server's threads take atomically: each member function
of `Server` and `Dispatcher` that runs under one lock, each system call and
each access to the runtime configuration is one action. The handlers are
programs over these actions. -/
namespace SocketMessaging

namespace Server

/-- The first entry, in the order of the walk, that stores this socket. -/
def getUsernameBySocket (env : Env) (socket : Fd) (server : Server) : Str :=
  match (env.visit server.clients).find? fun entry => entry.2.socket = socket with
  | some entry => entry.1
  | none => []

def getUserSocket (username : Str) (server : Server) : Fd :=
  match server.clients.lookup username with
  | some info => info.socket
  | none => -1

def isUsernameTaken (username : Str) (server : Server) : Bool :=
  (server.clients.lookup username).isSome

/-- `clients[username] = ClientInfo(socket)` replaces an entry that is there. -/
def registerClient (env : Env) (username : Str) (socket : Fd) (server : Server) : Server :=
  { server with clients := server.clients.insert username ⟨socket, env.steadyClock, false⟩ }

def unregisterClient (username : Str) (server : Server) : Server :=
  { server with clients := server.clients.erase username }

def updateClientPong (env : Env) (username : Str) (server : Server) : Server :=
  match server.clients.lookup username with
  | some info =>
    let refreshed := { info with lastPong := env.steadyClock, waitingForPong := false }
    { server with clients := server.clients.insert username refreshed }
  | none => server

/-- The copy is a second hash map, so its own walk may take another order. -/
def getAllClients (env : Env) (server : Server) : List (Str × Fd) :=
  (env.walk ((env.visit server.clients).map Prod.fst)).filterMap fun name =>
    (server.clients.lookup name).map fun info => (name, info.socket)

/-- The scan of `checkClientTimeouts`: whole seconds since the last PONG. -/
def getTimedOutClients (env : Env) (server : Server) : List Str :=
  ((env.visit server.clients).filter fun entry =>
    Constants.heartbeatTimeoutS < (env.steadyClock - entry.2.lastPong).tdiv 1000000000).map Prod.fst

def isBanned (username : Str) (server : Server) : Bool :=
  (server.bannedUsers.lookup username).isSome

/-- `loadBanlist` inserts the non-empty lines of the file. -/
def loadBanlist (file : Option Str) (banned : StrMap Unit) : StrMap Unit :=
  match file with
  | none => banned
  | some content =>
    ((content.splitOn 10).filter fun line => !line.isEmpty).foldl
      (fun banned line => banned.insert line ()) banned

/-- The file that `saveBanlist` writes. -/
def saveBanlist (env : Env) (banned : StrMap Unit) : Str :=
  (env.visit banned).flatMap fun entry => entry.1 ++ [10]

end Server

namespace Dispatcher

/-- `queueMessage`: whether the message is in the queue afterwards. -/
def queueMessage (message : Message) (d : Dispatcher) : Bool × Dispatcher :=
  if sizeOfInt d.config.maxStoredMessages ≤ d.messages.length then
    match d.config.queuePolicy with
    | .reject => (false, d)
    | .dropOldest => (true, { d with messages := d.messages.tail ++ [message] })
    | .dropNewest => (false, d)
  else (true, { d with messages := d.messages ++ [message] })

end Dispatcher

inductive Action : Type → Type where
  | getUsernameBySocket (socket : Fd) : Action Str
  | getUserSocket (username : Str) : Action Fd
  | isUsernameTaken (username : Str) : Action Bool
  | registerClient (username : Str) (socket : Fd) : Action Unit
  | unregisterClient (username : Str) : Action Unit
  | updateClientPong (username : Str) : Action Unit
  | getAllClients : Action (List (Str × Fd))
  | getTimedOutClients : Action (List Str)
  | pingClients : Action Unit
  | isBanned (username : Str) : Action Bool
  | banlistAdd (username : Str) : Action Unit
  | banlistRemove (username : Str) : Action Bool
  | queueMessage (message : Message) : Action Bool
  | popMessage : Action (Option Message)
  | incrementMessagesSent : Action Unit
  | incrementMessagesReceived : Action Unit
  | runtimeConfig : Action RuntimeConfig
  | setConfig (key value : Str) : Action Bool
  | resetConfig : Action Unit
  | systemClock : Action Int
  | serverLog : Action (Option Str)
  | send (socket : Fd) (message : Str) : Action Bool
  | close (socket : Fd) : Action Unit
  | stop : Action Unit
  /-- An access past the end of a vector. -/
  | outOfRange : Action Str

namespace World

/-- Apply a function to the server's members only. -/
def mapServer (f : Server → Server) (w : World) : World := { w with server := f w.server }

def registerClient (env : Env) (username : Str) (socket : Fd) (w : World) : World :=
  let registered := (w.mapServer (Server.registerClient env username socket)).record
    (.register username (w.os.holder socket))
  { registered with registrant := Function.update w.registrant username (w.os.holder socket) }

def unregisterClient (username : Str) (w : World) : World :=
  (w.mapServer (Server.unregisterClient username)).record (.unregister username)

def writeBanlist (env : Env) (banned : StrMap Unit) (w : World) : World :=
  { w with
    server := { w.server with bannedUsers := banned }
    os := { w.os with banlist := some (Server.saveBanlist env banned) } }

/-- One round of the locked loop of `heartbeatLoop`. -/
def pingClient (env : Env) (entry : Str × ClientInfo) (w : World) : World :=
  (w.send env entry.2.socket (str "PING\n")).2.mapServer fun server =>
    { server with clients := server.clients.insert entry.1 { entry.2 with waitingForPong := true } }

def pingClients (env : Env) (w : World) : World :=
  (env.visit w.server.clients).foldl (fun w entry => w.pingClient env entry) w

def queueMessage (message : Message) (w : World) : Bool × World :=
  let queued := w.server.dispatcher.queueMessage message
  (queued.1, w.mapServer fun server => { server with dispatcher := queued.2 })

def popMessage (w : World) : Option Message × World :=
  (w.server.dispatcher.messages.head?, w.mapServer fun server => { server with
    dispatcher := { server.dispatcher with messages := server.dispatcher.messages.tail } })

def countSent (w : World) : World :=
  w.mapServer fun server => { server with totalMessagesSent := server.totalMessagesSent + 1 }

def countReceived (w : World) : World :=
  w.mapServer fun server => { server with totalMessagesReceived := server.totalMessagesReceived + 1 }

/-- `Server::stop` closes every registered socket, then the process exits. -/
def stop (env : Env) (w : World) : World :=
  let closed := (env.visit w.server.clients).foldl (fun w entry => w.close entry.2.socket) w
  closed.mapServer fun server => { server with clients := ∅, status := .off }

end World

/-- Result and effect of one action. -/
def exec (env : Env) {β : Type} : Action β → World → β × World
  | .getUsernameBySocket socket, w => (w.server.getUsernameBySocket env socket, w)
  | .getUserSocket username, w => (w.server.getUserSocket username, w)
  | .isUsernameTaken username, w => (w.server.isUsernameTaken username, w)
  | .registerClient username socket, w => ((), w.registerClient env username socket)
  | .unregisterClient username, w => ((), w.unregisterClient username)
  | .updateClientPong username, w => ((), w.mapServer (Server.updateClientPong env username))
  | .getAllClients, w => (w.server.getAllClients env, w)
  | .getTimedOutClients, w => (w.server.getTimedOutClients env, w)
  | .pingClients, w => ((), w.pingClients env)
  | .isBanned username, w => (w.server.isBanned username, w)
  | .banlistAdd username, w => ((), w.writeBanlist env (w.server.bannedUsers.insert username ()))
  | .banlistRemove username, w =>
    if w.server.isBanned username then
      (true, w.writeBanlist env (w.server.bannedUsers.erase username))
    else (false, w)
  | .queueMessage message, w => w.queueMessage message
  | .popMessage, w => w.popMessage
  | .incrementMessagesSent, w => ((), w.countSent)
  | .incrementMessagesReceived, w => ((), w.countReceived)
  | .runtimeConfig, w => (w.runtimeConfig, w)
  | .setConfig key value, w =>
    let result := w.runtimeConfig.set key value
    (result.1, { w with runtimeConfig := result.2 })
  | .resetConfig, w => ((), { w with runtimeConfig := w.runtimeConfig.reset })
  | .systemClock, w => (env.systemClock, w)
  | .serverLog, w => (env.serverLog, w)
  | .send socket message, w => w.send env socket message
  | .close socket, w => ((), w.close socket)
  | .stop, w => ((), w.stop env)
  | .outOfRange, w => ([], w)

section Stepping
variable {α : Type} (env : Env) (w : World)

@[simp] theorem run_getUsernameBySocket (socket : Fd) (next : Str → Prog Action α) :
    (Prog.act (.getUsernameBySocket socket) next).run (exec env) w =
      (next (w.server.getUsernameBySocket env socket)).run (exec env) w := rfl

@[simp] theorem run_getUserSocket (username : Str) (next : Fd → Prog Action α) :
    (Prog.act (.getUserSocket username) next).run (exec env) w =
      (next (w.server.getUserSocket username)).run (exec env) w := rfl

@[simp] theorem run_isUsernameTaken (username : Str) (next : Bool → Prog Action α) :
    (Prog.act (.isUsernameTaken username) next).run (exec env) w =
      (next (w.server.isUsernameTaken username)).run (exec env) w := rfl

@[simp] theorem run_registerClient (username : Str) (socket : Fd) (next : Unit → Prog Action α) :
    (Prog.act (.registerClient username socket) next).run (exec env) w =
      (next ()).run (exec env) (w.registerClient env username socket) := rfl

@[simp] theorem run_unregisterClient (username : Str) (next : Unit → Prog Action α) :
    (Prog.act (.unregisterClient username) next).run (exec env) w =
      (next ()).run (exec env) (w.unregisterClient username) := rfl

@[simp] theorem run_getAllClients (next : List (Str × Fd) → Prog Action α) :
    (Prog.act .getAllClients next).run (exec env) w =
      (next (w.server.getAllClients env)).run (exec env) w := rfl

@[simp] theorem run_getTimedOutClients (next : List Str → Prog Action α) :
    (Prog.act .getTimedOutClients next).run (exec env) w =
      (next (w.server.getTimedOutClients env)).run (exec env) w := rfl

@[simp] theorem run_isBanned (username : Str) (next : Bool → Prog Action α) :
    (Prog.act (.isBanned username) next).run (exec env) w =
      (next (w.server.isBanned username)).run (exec env) w := rfl

@[simp] theorem run_queueMessage (message : Message) (next : Bool → Prog Action α) :
    (Prog.act (.queueMessage message) next).run (exec env) w =
      (next (w.queueMessage message).1).run (exec env) (w.queueMessage message).2 := rfl

@[simp] theorem run_popMessage (next : Option Message → Prog Action α) :
    (Prog.act .popMessage next).run (exec env) w =
      (next w.server.dispatcher.messages.head?).run (exec env) w.popMessage.2 := rfl

@[simp] theorem run_incrementMessagesReceived (next : Unit → Prog Action α) :
    (Prog.act .incrementMessagesReceived next).run (exec env) w =
      (next ()).run (exec env) w.countReceived := rfl

@[simp] theorem run_incrementMessagesSent (next : Unit → Prog Action α) :
    (Prog.act .incrementMessagesSent next).run (exec env) w =
      (next ()).run (exec env) w.countSent := rfl

@[simp] theorem run_runtimeConfig (next : RuntimeConfig → Prog Action α) :
    (Prog.act .runtimeConfig next).run (exec env) w =
      (next w.runtimeConfig).run (exec env) w := rfl

@[simp] theorem run_systemClock (next : Int → Prog Action α) :
    (Prog.act .systemClock next).run (exec env) w = (next env.systemClock).run (exec env) w := rfl

@[simp] theorem run_serverLog (next : Option Str → Prog Action α) :
    (Prog.act .serverLog next).run (exec env) w = (next env.serverLog).run (exec env) w := rfl

@[simp] theorem run_send (socket : Fd) (message : Str) (next : Bool → Prog Action α) :
    (Prog.act (.send socket message) next).run (exec env) w =
      (next (w.send env socket message).1).run (exec env) (w.send env socket message).2 := rfl

@[simp] theorem run_close (socket : Fd) (next : Unit → Prog Action α) :
    (Prog.act (.close socket) next).run (exec env) w = (next ()).run (exec env) (w.close socket) := rfl

end Stepping

/-- A handler of the server. -/
abbrev Handler := Prog Action Unit

/-- `items[index]` of a vector. -/
def nth (items : List Str) (index : Nat) : Prog Action Str :=
  match items[index]? with
  | some item => .done item
  | none => .perform .outOfRange

@[simp] theorem nth_run (env : Env) (items : List Str) (index : Nat) (w : World) :
    (nth items index).run (exec env) w = (items.getD index [], w) := by
  rw [List.getD_eq_getElem?_getD]
  unfold nth
  cases items[index]? <;> rfl

end SocketMessaging
