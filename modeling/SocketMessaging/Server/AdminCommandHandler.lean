import SocketMessaging.Server.CommandHandler

/-! The administrator's console. Commands that only print are kept in the table
with an empty program, since the console's output is not modeled. -/
namespace SocketMessaging.AdminCommandHandler
open Utils MessageParser Prog

structure AdminCommand where
  handler : List Str → Handler
  minArgs : Nat

/-- The words from index `first` on, joined by single spaces. -/
def joinArgs (first : Nat) (args : List Str) : Str := (str " ").intercalate (args.drop first)

/-- A message of the administrator as clients receive it. -/
def announcement (subject message : Str) : Str :=
  build (str "MESSAGE") [str "SERVER", subject, message, str "0"]

def sendToAll (message : Str) : List (Str × Fd) → Handler
  | [] => return
  | (_, socket) :: clients => do
    let _ ← perform (.send socket message)
    sendToAll message clients

def cmdBroadcast (args : List Str) : Handler := do
  let clients ← perform .getAllClients
  sendToAll (announcement (str "Announcement") (joinArgs 1 args)) clients

def cmdSend (args : List Str) : Handler := do
  let username ← nth args 1
  let socket ← perform (.getUserSocket username)
  if socket ≤ 0 then
    return
  let _ ← perform (.send socket (announcement (str "Private Message") (joinArgs 2 args)))

/-- Whether the user was found and disconnected. -/
def disconnectUser (username reason : Str) : Prog Action Bool := do
  let socket ← perform (.getUserSocket username)
  if socket ≤ 0 then
    return false
  let _ ← perform (.send socket (build (str "ERROR") [reason]))
  perform (.unregisterClient username)
  perform (.close socket)
  return true

def cmdKick (args : List Str) : Handler := do
  let username ← nth args 1
  let _ ← disconnectUser username (str "You have been disconnected by admin")

def cmdBan (args : List Str) : Handler := do
  let username ← nth args 1
  if ← disconnectUser username (str "You have been banned by admin") then
    perform (.banlistAdd username)

def cmdUnban (args : List Str) : Handler := do
  let username ← nth args 1
  let _ ← perform (.banlistRemove username)

def cmdSet (args : List Str) : Handler := do
  let key ← nth args 1
  let value ← nth args 2
  let _ ← perform (.setConfig key value)

def cmdReset (_args : List Str) : Handler := perform .resetConfig

def cmdStop (_args : List Str) : Handler := perform .stop

/-- `help`, `list`, `stats` and `config` print and change nothing. -/
def cmdPrint (_args : List Str) : Handler := return

/-- The map filled by `initializeCommands`, without usage and description texts. -/
def commands : List (Str × AdminCommand) :=
  [(str "help", ⟨cmdPrint, 0⟩), (str "broadcast", ⟨cmdBroadcast, 1⟩), (str "send", ⟨cmdSend, 2⟩),
   (str "list", ⟨cmdPrint, 0⟩), (str "kick", ⟨cmdKick, 1⟩), (str "ban", ⟨cmdBan, 1⟩),
   (str "unban", ⟨cmdUnban, 1⟩), (str "stats", ⟨cmdPrint, 0⟩), (str "set", ⟨cmdSet, 2⟩),
   (str "config", ⟨cmdPrint, 0⟩), (str "reset", ⟨cmdReset, 0⟩), (str "stop", ⟨cmdStop, 0⟩)]

/-- One round of `commandLoop` on a line read from the console. -/
def commandLine (line : Str) : Handler :=
  match line with
  | [] => .done ()
  | c :: text =>
    if c ≠ 47 then .done ()
    else
      match split text (str " ") with
      | [] => .done ()
      | cmdName :: args =>
        match commands.lookup cmdName with
        | none => .done ()
        | some cmd => if args.length < cmd.minArgs then .done () else cmd.handler (cmdName :: args)

end SocketMessaging.AdminCommandHandler
