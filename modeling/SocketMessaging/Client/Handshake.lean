import SocketMessaging.Client.Client
import SocketMessaging.Server.Untouched

/-! One call of `Client::connect` together with the server that it calls, whose
threads go on meanwhile. Their connection keeps frames in order and loses none. -/
namespace SocketMessaging
open Prog Utils MessageParser

/-- What the calls of the client meet that the two programs do not determine. -/
structure Client.Answers where
  socket : Fd
  inetPton : Bool
  connect : Bool
  send : Bool

/-- `reached` says that the connection exists, and `conn` is its number once the
server has accepted it. The frames in `outgoing` are written but not read yet. -/
structure Handshake where
  client : Client.Attempt
  server : Threads
  reached : Bool
  conn : Option ConnId
  outgoing : List Str
  closed : Bool

namespace Handshake

inductive Move where
  | client (answers : Client.Answers)
  | accept (socket : Fd)
  | server (move : SocketMessaging.Move)

/-- `Client::connect` is called on a server that has just started. -/
def start (username : Str) (client : Client) (banlist : Option Str) : Handshake where
  client := client.connect username
  server := .initial banlist
  reached := false
  conn := none
  outgoing := []
  closed := false

/-- The frames written to the client. It reads one of them at most. -/
def arrived (s : Handshake) : List Str :=
  match s.conn with
  | some conn => s.server.world.framesTo conn
  | none => []

/-- The server has closed its end, or stopped. -/
def Cut (s : Handshake) : Prop :=
  s.server.world.server.status ≠ .running ∨ ∃ conn ∈ s.conn, ∃ worker ∈ s.server.workers[conn]?,
    s.server.world.os.user worker.socket ≠ some conn

instance (s : Handshake) : Decidable s.Cut := inferInstanceAs (Decidable (_ ∨ ∃ _ ∈ _, ∃ _ ∈ _, _))

/-- The number that this loop reads is the client's connection. -/
def Reads (s : Handshake) (i : ConnId) : Prop :=
  ∃ conn ∈ s.conn, ∃ worker ∈ s.server.workers[i]?,
    s.server.world.os.user worker.socket = some conn

instance : DecidableRel Reads := fun _ _ => inferInstanceAs (Decidable (∃ _ ∈ _, ∃ _ ∈ _, _))

/-- Result and effect of a call of the client. Receiving blocks while nothing has arrived. -/
def answer (answers : Client.Answers) (s : Handshake) {β : Type} :
    Client.Call β → Option (β × Handshake)
  | .socket => some (answers.socket, s)
  | .inetPton _ => some (answers.inetPton, s)
  | .connect => some (answers.connect, { s with reached := answers.connect })
  | .send message =>
    some (answers.send, if answers.send then { s with outgoing := s.outgoing ++ [message] } else s)
  | .receive =>
    match s.arrived with
    | frame :: _ => some (if NetworkStream.Admissible frame then some frame else none, s)
    | [] => if s.Cut then some (none, s) else none
  | .close => some ((), { s with closed := true })

/-- Whether the connection lets the server make this move: what a loop reads from
it is the next frame, and receiving fails on it only after the client has closed it. -/
def Admits (s : Handshake) : SocketMessaging.Move → Prop
  | .receive i raw => s.Reads i → s.outgoing.head? = some raw
  | .receiveFailure i => s.Reads i → s.closed = true ∧ s.outgoing = []
  | _ => True

instance : DecidableRel Admits
  | _, .receive _ _ | _, .receiveFailure _ => inferInstanceAs (Decidable (_ → _))
  | _, .accept _ | _, .advance _ | _, .start _ | _, .advanceTask _ => isTrue trivial

def outgoingAfter (s : Handshake) : SocketMessaging.Move → List Str
  | .receive i _ => if s.Reads i then s.outgoing.tail else s.outgoing
  | _ => s.outgoing

/-- `none` means that the move is not enabled. `accept` accepts the client's
connection; any other is accepted by a move of the server. -/
def step (s : Handshake) (label : Env × Move) : Option Handshake :=
  let (env, move) := label
  match move with
  | .client answers =>
    match s.client with
    | .done _ => none
    | .act call next => (s.answer answers call).map fun (result, after) =>
        { after with client := next result }
  | .accept socket =>
    if s.reached = true ∧ s.conn = none then
      (s.server.step (env, .accept socket)).map fun server =>
        { s with server, conn := some s.server.workers.length }
    else none
  | .server move =>
    if s.Admits move then
      (s.server.step (env, move)).map fun server =>
        { s with server, outgoing := s.outgoingAfter move }
    else none

/-- What an enabled move does. -/
inductive Stepped (env : Env) (s : Handshake) : Move → Handshake → Prop where
  | client {answers : Client.Answers} {β : Type} {call : Client.Call β} {next : β → Client.Attempt}
      {result : β} {after : Handshake} : s.client = .act call next →
      s.answer answers call = some (result, after) →
      Stepped env s (.client answers) { after with client := next result }
  | accept {socket : Fd} {server : Threads} : s.conn = none →
      s.server.step (env, .accept socket) = some server →
      Stepped env s (.accept socket) { s with server, conn := some s.server.workers.length }
  | server {move : SocketMessaging.Move} {server : Threads} : s.Admits move →
      s.server.step (env, move) = some server →
      Stepped env s (.server move) { s with server, outgoing := s.outgoingAfter move }

theorem step_cases {s after : Handshake} {env : Env} {move : Move}
    (stepped : step s (env, move) = some after) : Stepped env s move after := by
  cases move with
  | client answers =>
    cases program : s.client with
    | done => simp [step, program] at stepped
    | act call next =>
      simp only [step, program, Option.map_eq_some_iff, Prod.exists] at stepped
      obtain ⟨result, after, answered, rfl⟩ := stepped
      exact .client program answered
  | accept socket =>
    obtain ⟨⟨_, fresh⟩, stepped⟩ := Option.ite_none_right_eq_some.mp stepped
    obtain ⟨server, accepted, rfl⟩ := Option.map_eq_some_iff.mp stepped
    exact .accept fresh accepted
  | server move =>
    obtain ⟨admits, stepped⟩ := Option.ite_none_right_eq_some.mp stepped
    obtain ⟨server, moved, rfl⟩ := Option.map_eq_some_iff.mp stepped
    exact .server admits moved

/-- The server has registered the name for the client's connection. -/
def Registered (username : Str) (s : Handshake) : Prop :=
  ∃ conn ∈ s.conn, .register username (some conn) ∈ s.server.world.os.log

/-- The answers by which `handleConnect` refuses a name. -/
def refusals : List Str :=
  [build (str "ERROR") [str "Invalid username"],
   build (str "ERROR") [str "You are banned from this server"],
   build (str "ERROR") [str "Username already exists"]]

/-- The two ends agree: `connect` succeeds if and only if the server has
registered the name, and what the client receives first is the answer to its CONNECT. -/
structure Agreed (username : Str) (s : Handshake) : Prop where
  outcome : ∀ {result : Except Str Client}, s.client = .done result →
    ((∃ client, result = .ok client) ↔ Registered username s)
  answer : ∀ {frame : Str}, s.arrived.head? = some frame →
    frame = connectedAs username ∧ Registered username s ∨
    frame ∈ refusals ∧ ¬ Registered username s

/-! The condition under which they agree. -/

/-- The program is about to confirm a login. -/
def confirms (rest : Handler) : Bool := (sending rest).any fun message => message.take 4 = confirmation

/-- The number accepted for the client is not still in use: no loop that has not
returned reads it, no name stores it, and no other thread has looked it up and
may still act on it. And while the client is registered but has not been told,
no other thread writes to its number or closes it or stops the server. -/
def Undisturbed (s : Handshake) (label : Env × Move) : Prop :=
  match label.2 with
  | .client _ => True
  | .accept socket => (∀ worker ∈ s.server.workers, worker.live = true → worker.socket ≠ socket) ∧
      s.server.world.Unnamed socket ∧ ∀ task ∈ s.server.tasks, Handler.Avoids socket task
  | .server move => ∀ conn ∈ s.conn, ∀ worker ∈ s.server.workers[conn]?,
      confirms worker.rest = true → move ≠ .advance conn →
      Handler.Clears worker.socket s.server.world (s.server.advanced move) ∧
      stopping (s.server.advanced move) = false

end Handshake
end SocketMessaging
