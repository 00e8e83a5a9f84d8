import SocketMessaging.Library.Program
import SocketMessaging.Server.State

/-! `Client::connect`, as a program over the calls it makes. The client takes the
first frame that arrives as the answer to its CONNECT, whatever it is. -/
namespace SocketMessaging
open Prog Utils MessageParser

structure Client where
  serverAddress : Str
  isConnected : Bool
  username : Str

namespace Client

/-- System calls and the two directions of `NetworkStream`. `inetPton` and
`connect` say whether the call succeeded. -/
inductive Call : Type → Type where
  | socket : Call Fd
  | inetPton (address : Str) : Call Bool
  | connect : Call Bool
  | send (message : Str) : Call Bool
  | receive : Call (Option Str)
  | close : Call Unit

/-- An attempt to connect. If it fails, its result is the text of `outError`. -/
abbrev Attempt := Prog Call (Except Str Client)

def connect (username : Str) (client : Client) : Attempt := do
  if client.isConnected then
    return .error (str "Already connected")
  let fd ← perform .socket
  if fd < 0 then
    return .error (str "Socket creation failed")
  if !(← perform (.inetPton client.serverAddress)) then
    perform .close
    return .error (str "Invalid address: " ++ client.serverAddress)
  if !(← perform .connect) then
    perform .close
    return .error (str "Cannot connect to server")
  if !(← perform (.send (build (str "CONNECT") [username]))) then
    perform .close
    return .error (str "Failed to send connection request")
  match ← perform .receive with
  | none =>
    perform .close
    return .error (str "No response from server")
  | some response =>
    let parsed := parse response
    if !parsed.isValid || parsed.command ≠ str "OK" then
      perform .close
      return .error (if parsed.isValid ∧ parsed.command = str "ERROR" ∧ 0 < parsed.argCount
        then parsed.arg 0 else str "Connection refused")
    return .ok { client with isConnected := true, username }

/-! The programs that `connect` becomes, one for each call it still has to make. -/

def giveUp (outError : Str) : Attempt := .act .close fun _ => .done (.error outError)

def conclude (username : Str) (client : Client) (response : Option Str) : Attempt :=
  match response with
  | none => giveUp (str "No response from server")
  | some response =>
    let parsed := parse response
    if !parsed.isValid || parsed.command ≠ str "OK" then
      giveUp (if parsed.isValid ∧ parsed.command = str "ERROR" ∧ 0 < parsed.argCount
        then parsed.arg 0 else str "Connection refused")
    else .done (.ok { client with isConnected := true, username })

def await (username : Str) (client : Client) : Attempt :=
  .act .receive (conclude username client)

def request (username : Str) (client : Client) : Attempt :=
  .act (.send (build (str "CONNECT") [username])) fun sent =>
    if !sent then giveUp (str "Failed to send connection request") else await username client

def reach (username : Str) (client : Client) : Attempt :=
  .act .connect fun reached =>
    if !reached then giveUp (str "Cannot connect to server") else request username client

def resolve (username : Str) (client : Client) : Attempt :=
  .act (.inetPton client.serverAddress) fun valid =>
    if !valid then giveUp (str "Invalid address: " ++ client.serverAddress) else reach username client

def openSocket (username : Str) (client : Client) : Attempt :=
  .act .socket fun fd =>
    if fd < 0 then .done (.error (str "Socket creation failed")) else resolve username client

theorem connect_eq (username : Str) (client : Client) : connect username client =
    if client.isConnected then .done (.error (str "Already connected"))
    else openSocket username client := by
  unfold connect
  simp only [perform_bind, pure_eq]
  rfl

/-- The attempt can only fail. -/
inductive Failing : Attempt → Prop where
  | closing (outError : Str) : Failing (giveUp outError)
  | failed (outError : Str) : Failing (.done (.error outError))

/-- The attempt has not sent its CONNECT yet. -/
inductive Early (username : Str) : Attempt → Prop where
  | openSocket (client : Client) : Early username (openSocket username client)
  | resolve (client : Client) : Early username (resolve username client)
  | reach (client : Client) : Early username (reach username client)
  | request (client : Client) : Early username (request username client)
  | failing {rest : Attempt} : Failing rest → Early username rest

theorem connect_early (username : Str) (client : Client) :
    Early username (connect username client) := by
  rw [connect_eq]
  split
  · exact .failing (.failed _)
  · exact .openSocket client

end Client
end SocketMessaging
