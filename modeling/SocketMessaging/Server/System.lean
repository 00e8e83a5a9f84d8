import SocketMessaging.Library.Runs
import SocketMessaging.Server.AdminCommandHandler
import SocketMessaging.Server.Dispatcher

/-! The running server as a labeled transition system. Every operation runs
atomically; the environment decides which comes next, what clients send, which
free number `accept` returns and everything in `Env`. -/
namespace SocketMessaging
open Prog

/-- The timed-out names one by one, as the second half of `checkClientTimeouts` takes them. -/
def disconnectTimedOut : List Str → Handler
  | [] => return
  | username :: names => do
    let socket ← perform (.getUserSocket username)
    if 0 < socket then
      CommandHandler.handleDisconnect [] socket
    disconnectTimedOut names

def checkClientTimeouts : Handler := do
  let timedOutClients ← perform .getTimedOutClients
  disconnectTimedOut timedOutClients

/-- The handler loop started for a connection, which reads its descriptor by number. -/
structure Loop where
  socket : Fd
  live : Bool
  deriving DecidableEq

/-- The loop at index `i` is the one started for connection `i`. -/
structure System where
  world : World
  loops : List Loop

/-- An operation of the running server. `receive` and `receiveFailure` are one
iteration of the loop started for a connection; in the first case `recv` returned the
message `raw` on the loop's number. -/
inductive Operation where
  | accept (socket : Fd)
  | receive (loop : ConnId) (raw : Str)
  | receiveFailure (loop : ConnId)
  | dispatch
  | admin (line : Str)
  | heartbeat
  | checkTimeouts

namespace System

/-- The server just started, with the given content of the banlist file. -/
def initial (banlist : Option Str) : System where
  world :=
    { server :=
        { clients := ∅
          bannedUsers := Server.loadBanlist banlist ∅
          dispatcher := { messages := [], config := {} }
          totalMessagesSent := 0
          totalMessagesReceived := 0
          status := .running }
      runtimeConfig := .initial
      os := { user := fun _ => none, holder := fun _ => none, banlist, log := [] }
      registrant := fun _ => none }
  loops := []

/-- Run a handler to completion. -/
def execute (env : Env) (handler : Handler) (s : System) : System :=
  { s with world := (handler.run (exec env) s.world).2 }

/-- The loop started for connection `i`, if it has not returned. -/
def liveLoop (s : System) (i : ConnId) : Option Fd :=
  match s.loops[i]? with
  | some loop => if loop.live then some loop.socket else none
  | none => none

theorem liveLoop_eq_some {s : System} {i : ConnId} {socket : Fd} :
    s.liveLoop i = some socket ↔ s.loops[i]? = some ⟨socket, true⟩ := by
  unfold liveLoop
  cases found : s.loops[i]? with
  | none => simp
  | some loop =>
    obtain ⟨number, live⟩ := loop
    cases live <;> simp

def endLoop (s : System) (i : ConnId) : System :=
  { s with loops := s.loops.modify i fun loop => { loop with live := false } }

/-- `none` means that the operation is not enabled. -/
def step (s : System) (label : Env × Operation) : Option System :=
  let (env, operation) := label
  if s.world.server.status ≠ .running then none
  else match operation with
  | .accept socket =>
    if 0 ≤ socket ∧ s.world.os.user socket = none then
      some { world := s.world.accept socket s.loops.length, loops := s.loops ++ [⟨socket, true⟩] }
    else none
  | .receive i raw =>
    match s.liveLoop i with
    | some socket =>
      if s.world.os.user socket ≠ none ∧ NetworkStream.Admissible raw then
        some (s.execute env (CommandHandler.handleMessage raw socket))
      else none
    | none => none
  | .receiveFailure i =>
    match s.liveLoop i with
    | some socket => some ((s.execute env (CommandHandler.handleReceiveFailure socket)).endLoop i)
    | none => none
  | .dispatch =>
    if s.world.server.dispatcher.messages = [] then none
    else some (s.execute env Dispatcher.runOnce)
  | .admin line => some (s.execute env (AdminCommandHandler.commandLine line))
  | .heartbeat => some (s.execute env (perform .pingClients))
  | .checkTimeouts => some (s.execute env checkClientTimeouts)

/-- What an enabled operation does, one constructor for each. -/
inductive Stepped (env : Env) (s : System) : Operation → System → Prop where
  | accept {socket : Fd} : 0 ≤ socket → s.world.os.user socket = none →
      Stepped env s (.accept socket)
        { world := s.world.accept socket s.loops.length, loops := s.loops ++ [⟨socket, true⟩] }
  | receive {i : ConnId} {raw : Str} {socket : Fd} {conn : ConnId} : s.liveLoop i = some socket →
      s.world.os.user socket = some conn → NetworkStream.Admissible raw →
      Stepped env s (.receive i raw) (s.execute env (CommandHandler.handleMessage raw socket))
  | receiveFailure {i : ConnId} {socket : Fd} : s.liveLoop i = some socket →
      Stepped env s (.receiveFailure i)
        ((s.execute env (CommandHandler.handleReceiveFailure socket)).endLoop i)
  | dispatch : s.world.server.dispatcher.messages ≠ [] →
      Stepped env s .dispatch (s.execute env Dispatcher.runOnce)
  | admin {line : Str} :
      Stepped env s (.admin line) (s.execute env (AdminCommandHandler.commandLine line))
  | heartbeat : Stepped env s .heartbeat (s.execute env (perform .pingClients))
  | checkTimeouts : Stepped env s .checkTimeouts (s.execute env checkClientTimeouts)

theorem step_cases {s after : System} {env : Env} {operation : Operation}
    (stepped : step s (env, operation) = some after) :
    s.world.server.status = .running ∧ Stepped env s operation after := by
  by_cases running : s.world.server.status = .running
  case neg => simp [step, running] at stepped
  refine ⟨running, ?_⟩
  simp only [step, ne_eq, running, not_true_eq_false, if_false] at stepped
  cases operation with
  | accept socket =>
    simp only [Option.ite_none_right_eq_some, Option.some.injEq] at stepped
    obtain ⟨⟨nonneg, free⟩, rfl⟩ := stepped
    exact .accept nonneg free
  | receive i raw =>
    cases live : s.liveLoop i with
    | none => simp [live] at stepped
    | some socket =>
      simp only [live, Option.ite_none_right_eq_some, Option.some.injEq] at stepped
      obtain ⟨⟨used, admissible⟩, rfl⟩ := stepped
      obtain ⟨conn, used⟩ := Option.ne_none_iff_exists'.mp used
      exact .receive live used admissible
  | receiveFailure i =>
    cases live : s.liveLoop i with
    | none => simp [live] at stepped
    | some socket =>
      simp only [live, Option.some.injEq] at stepped
      exact stepped ▸ .receiveFailure live
  | dispatch =>
    simp only [Option.ite_none_left_eq_some, Option.some.injEq] at stepped
    exact stepped.2 ▸ .dispatch stepped.1
  | admin line => exact Option.some.inj stepped ▸ .admin
  | heartbeat => exact Option.some.inj stepped ▸ .heartbeat
  | checkTimeouts => exact Option.some.inj stepped ▸ .checkTimeouts

/-- States of a server started with some banlist file. -/
def Reachable (s : System) : Prop :=
  ∃ banlist, Transition.Reachable step (initial banlist) s

theorem reachable_of_execute {banlist : Option Str} {labels : List (Env × Operation)} {s : System}
    (executed : Transition.execute step (initial banlist) labels = some s) : Reachable s :=
  ⟨banlist, labels, Transition.execute_run labels executed⟩

/-- Where these operations lead from an empty server, each under `Env.plain`. -/
def plainRun (operations : List Operation) : Option System :=
  Transition.execute step (initial none) (operations.map fun operation => (.plain, operation))

theorem reachable_of_plainRun {operations : List Operation} {s : System}
    (ran : plainRun operations = some s) : Reachable s :=
  reachable_of_execute ran

end System
end SocketMessaging
