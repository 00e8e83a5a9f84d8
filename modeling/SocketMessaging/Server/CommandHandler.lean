import SocketMessaging.Server.Actions

/-! The commands of clients, as `CommandHandler.cpp` carries them out. Logging
is left out; replies go through `NetworkStream::send`, whose result is ignored. -/
namespace SocketMessaging.CommandHandler
open Utils MessageParser Prog

def sendResponse (socket : Fd) (message : Str) : Handler := do
  let _ ← perform (.send socket message)

def sendOK (socket : Fd) (message : Str) : Handler :=
  sendResponse socket (build (str "OK") [if message = [] then str "OK" else message])

def sendError (socket : Fd) (error : Str) : Handler :=
  sendResponse socket (build (str "ERROR") [error])

def handleConnect (parsedData : List Str) (socket : Fd) : Handler := do
  if parsedData.length < 2 then
    return
  let username := sanitize (← nth parsedData 1)
  let config ← perform .runtimeConfig
  if !isValidUsername config username then
    sendError socket (str "Invalid username")
    return
  if ← perform (.isBanned username) then
    sendError socket (str "You are banned from this server")
    perform (.close socket)
    return
  if ← perform (.isUsernameTaken username) then
    sendError socket (str "Username already exists")
    return
  perform (.registerClient username socket)
  sendResponse socket (build (str "OK") [str "Connected as " ++ username])

/-- `AUTO_STOP_WHEN_NO_CLIENTS` is the constant `false`, so the branch that
stops the server is never compiled in. -/
def handleDisconnect (_parsedData : List Str) (socket : Fd) : Handler := do
  let username ← perform (.getUsernameBySocket socket)
  if username = [] then
    return
  perform (.unregisterClient username)
  perform (.close socket)

/-- The loop over the copied client map that queues one message per recipient.
Whether the queue takes a message is not looked at. -/
def queueBroadcast (message : Message) : List (Str × Fd) → Handler
  | [] => return
  | (username, _) :: clients => do
    if username ≠ message.sender then
      let _ ← perform (.queueMessage { message with recipient := username })
    queueBroadcast message clients

def handleSendMessage (parsedData : List Str) (socket : Fd) : Handler := do
  if parsedData.length < 4 then
    sendError socket (str "Malformed message: missing fields")
    return
  let sender ← perform (.getUsernameBySocket socket)
  if sender = [] then
    sendError socket (str "Not authenticated")
    return
  perform .incrementMessagesReceived
  let recipient := sanitize (← nth parsedData 1)
  let subject := sanitize (← nth parsedData 2)
  let body := sanitize (← nth parsedData 3)
  let timestamp ← perform .systemClock
  let message : Message := { sender, recipient, subject, body, timestamp }
  let config ← perform .runtimeConfig
  if !isValidSubject config message.subject then
    sendError socket (str "Subject too long (max " ++ toDecimal Constants.maxSubjectLength ++
      str " chars)")
    return
  if !isValidBody message.body then
    sendError socket (str "Body is empty")
    return
  if message.recipient = str "all" then
    let clients ← perform .getAllClients
    queueBroadcast message clients
    sendOK socket (str "Broadcast sent")
    return
  let recipientSocket ← perform (.getUserSocket message.recipient)
  if recipientSocket ≤ 0 then
    sendError socket (str "User '" ++ message.recipient ++ str "' does not exist or is offline")
    return
  if ← perform (.queueMessage message) then
    sendOK socket (str "Message sent")
  else
    sendError socket (str "Failed to send message: queue full or dispatcher error")

def handlePing (_parsedData : List Str) (socket : Fd) : Handler :=
  sendResponse socket (str "PONG\n")

def handlePong (_parsedData : List Str) (socket : Fd) : Handler := do
  let username ← perform (.getUsernameBySocket socket)
  if username = [] then
    return
  perform (.updateClientPong username)

/-- The names, each followed by a comma, less the last comma. -/
def joinUsers (clients : List (Str × Fd)) : Str :=
  let userList := clients.flatMap fun entry => entry.1 ++ str ","
  if userList.getLast? = some 44 then userList.dropLast else userList

def handleListUsers (_parsedData : List Str) (socket : Fd) : Handler := do
  let clients ← perform .getAllClients
  sendResponse socket (build (str "USERS") [joinUsers clients])

/-- The lines that `std::getline` reads from a file. -/
def fileLines (content : Str) : List Str :=
  let lines := content.splitOn 10
  if lines.getLast? = some [] then lines.dropLast else lines

/-- At most the last fifty lines, each followed by a newline. -/
def logTail (lines : List Str) : Str :=
  let start := if 50 < lines.length then lines.length - 50 else 0
  (lines.drop start).flatMap fun line => line ++ [10]

def handleGetLog (_parsedData : List Str) (socket : Fd) : Handler := do
  match ← perform .serverLog with
  | none => sendError socket (str "Log file not available")
  | some content =>
    let lines := fileLines content
    if lines = [] then
      sendResponse socket (build (str "LOG") [str "Log file is empty"])
      return
    sendResponse socket (build (str "LOG") [logTail lines])

/-- The map filled by `Server::initializeCommands`. -/
def commands : List (Str × (List Str → Fd → Handler)) :=
  [(str "CONNECT", handleConnect), (str "DISCONNECT", handleDisconnect),
   (str "SEND", handleSendMessage), (str "PING", handlePing), (str "PONG", handlePong),
   (str "LIST_USERS", handleListUsers), (str "GET_LOG", handleGetLog)]

/-- `Server::executeCommand`. -/
def executeCommand (commandName : Str) (args : List Str) (socket : Fd) : Handler :=
  match commands.lookup commandName with
  | some handler => handler (commandName :: args) socket
  | none => do
    let _ ← perform (.send socket (build (str "ERROR") [str "Unknown command: " ++ commandName]))

/-- What `Server::handleClientMessages` does with a message it received. -/
def handleMessage (raw : Str) (socket : Fd) : Handler :=
  let parsed := parse raw
  if parsed.isValid then executeCommand parsed.command parsed.arguments socket else .done ()

/-- What `Server::handleClientMessages` does when receiving fails, before it returns. -/
def handleReceiveFailure (socket : Fd) : Handler := do
  let username ← perform (.getUsernameBySocket socket)
  if username ≠ [] then
    handleDisconnect [] socket

end SocketMessaging.CommandHandler
