import SocketMessaging.Client.Client
import SocketMessaging.Client.MessageHandler
import SocketMessaging.Utils.Socket

/-! The life of a `Client`, from its construction to its destruction: one thread calls
its functions in any order, and the listening thread uses the handler and its descriptor
meanwhile. The calls of the system succeed or fail as they like, and a descriptor that
has been closed may be given out again. -/
namespace SocketMessaging
open Prog Transition

namespace Client

/-- What the calls of `connect` return. -/
structure Outcomes where
  socket : Fd := 3
  inetPton : Bool := true
  connect : Bool := true
  send : Bool := true
  receive : Option Str := none

/-- Where the thread is that calls the functions. The flag says that `disconnect` has been
called by the destructor. -/
inductive Caller where
  | idle
  | connecting (rest : Attempt)
  /-- `disconnect` is about to join the listening thread. -/
  | joining (dying : Bool)
  | closing (dying : Bool)
  | destroyed

/-- The listening thread is joinable unless it is `absent`. -/
inductive Listening where
  | absent
  | running
  | finished
  deriving DecidableEq

end Client

open Client

/-- `messageHandler` holds the `socketFd` of the handler, if there is one. -/
structure Lifecycle where
  system : Handles Int := ⟨[], 0⟩
  client : Client
  clientSocket : Socket := {}
  messageHandler : Option Fd := none
  caller : Caller := .idle
  listener : Listening := .absent
  /-- `std::terminate` has been called. -/
  terminated : Bool := false

namespace Lifecycle

inductive Move where
  | connect (username : Str)
  /-- `connect` makes its next call, or returns. -/
  | call (outcomes : Outcomes)
  | startListening
  | disconnect
  | destroy
  | join
  | close
  /-- `listen` takes a frame, or fails to. -/
  | listen (frame : Option Str)

/-- `::socket` does not return a number that is in use. -/
def possible (outcomes : Outcomes) (s : Lifecycle) : ∀ {β : Type}, Call β → Bool
  | _, .socket => outcomes.socket ∉ s.system.inUse
  | _, _ => true

def useSocket (s : Lifecycle) : Lifecycle :=
  { s with system := s.system.use s.clientSocket.fd }

def closeSocket (s : Lifecycle) : Lifecycle :=
  { s with
    clientSocket := (s.clientSocket.close s.system).1
    system := (s.clientSocket.close s.system).2 }

/-- `clientSocket = Socket(fd)`, which comes after the check that `fd` is valid. -/
def setSocket (fd : Fd) (s : Lifecycle) : Lifecycle :=
  { s with
    clientSocket := (s.clientSocket.assign ⟨fd⟩ (s.system.acquire fd)).1
    system := (s.clientSocket.assign ⟨fd⟩ (s.system.acquire fd)).2.2 }

/-- The result of a call and what it does to the descriptors. -/
def answer (outcomes : Outcomes) (s : Lifecycle) : ∀ {β : Type}, Call β → β × Lifecycle
  | _, .socket => (outcomes.socket, if outcomes.socket < 0 then s else s.setSocket outcomes.socket)
  | _, .inetPton _ => (outcomes.inetPton, s)
  | _, .connect => (outcomes.connect, s.useSocket)
  | _, .send _ => (outcomes.send, s.useSocket)
  | _, .receive => (outcomes.receive, s.useSocket)
  | _, .close => ((), s.closeSocket)

/-- What `disconnect` does before it joins. -/
def beginDisconnect (dying : Bool) (s : Lifecycle) : Lifecycle :=
  { (if s.clientSocket.isValid then s.useSocket else s) with caller := .joining dying }

/-- The members are destroyed; the destructor of a joinable thread ends the process. -/
def destroyMembers (s : Lifecycle) : Lifecycle :=
  { s.closeSocket with
    messageHandler := none
    caller := .destroyed
    terminated := s.terminated || s.listener ≠ .absent }

/-- The listening thread uses the descriptor of the handler. -/
def useHandler (s : Lifecycle) : Lifecycle :=
  match s.messageHandler with
  | some socketFd => { s with system := s.system.use socketFd }
  | none => { s with system := { s.system with faults := s.system.faults + 1 } }

/-- A frame that `listen` answers with a PONG. -/
def isPing (frame : Str) : Bool :=
  (MessageHandler.parseMessage frame).any fun event => event.type = .ping

/-- `none` means that the move is not enabled. -/
def step (s : Lifecycle) (move : Move) : Option Lifecycle :=
  if s.terminated then none
  else match move, s.caller with
  | .connect username, .idle =>
    some { s with caller := .connecting (s.client.connect username) }
  | .call outcomes, .connecting (.act call next) =>
    if possible outcomes s call then
      let (result, after) := s.answer outcomes call
      some { after with caller := .connecting (next result) }
    else none
  | .call _, .connecting (.done (.error _)) => some { s with caller := .idle }
  | .call _, .connecting (.done (.ok client)) => some { s with
      client
      messageHandler := some s.clientSocket.fd
      caller := .idle }
  | .startListening, .idle =>
    if !s.client.isConnected || s.messageHandler.isNone then some s
    else if s.listener ≠ .absent then some { s with terminated := true }
    else some { s with listener := .running }
  | .disconnect, .idle =>
    if !s.client.isConnected then some s else some (s.beginDisconnect false)
  | .destroy, .idle =>
    if !s.client.isConnected then some s.destroyMembers else some (s.beginDisconnect true)
  | .join, .joining dying =>
    if s.listener = .running then none
    else some { s with listener := .absent, caller := .closing dying }
  | .close, .closing dying =>
    let after := { s.closeSocket with
      client := { s.client with isConnected := false }
      messageHandler := none
      caller := .idle }
    some (if dying then after.destroyMembers else after)
  | .listen frame, _ =>
    if s.listener = .running then
      match frame with
      | none => some { s.useHandler with listener := .finished }
      | some frame => some (if isPing frame then s.useHandler.useHandler else s.useHandler)
    else none
  | _, _ => none

def start (serverAddress : Str) : Lifecycle where
  client := ⟨serverAddress, false, []⟩

variable {s after : Lifecycle} {move : Move} {username : Str} {client : Client} {rest : Attempt}
  {held : Bool}

/-- Where a call of `connect` stands, and whether it holds a descriptor. -/
inductive Stage : Attempt → Bool → Prop where
  | openSocket (username : Str) (client : Client) : Stage (openSocket username client) false
  | resolve (username : Str) (client : Client) : Stage (resolve username client) true
  | reach (username : Str) (client : Client) : Stage (reach username client) true
  | request (username : Str) (client : Client) : Stage (request username client) true
  | await (username : Str) (client : Client) : Stage (await username client) true
  | giveUp (outError : Str) : Stage (giveUp outError) true
  | failed (outError : Str) : Stage (.done (.error outError)) false
  | connected {client : Client} : client.isConnected = true → Stage (.done (.ok client)) true

/-- The members agree, whatever the client is doing. -/
structure Sound (s : Lifecycle) : Prop where
  /-- The descriptors in use are the one that the client owns. -/
  balanced : s.system.Balanced s.clientSocket.owned
  /-- A connected client has a handler for its descriptor. -/
  connected : s.client.isConnected = true →
    s.clientSocket.isValid = true ∧ s.messageHandler = some s.clientSocket.fd
  disconnected : s.client.isConnected = false → s.messageHandler = none ∧ s.listener = .absent
  idle : s.caller = .idle → s.client.isConnected = false → s.clientSocket.isValid = false
  connecting : ∀ {rest : Attempt}, s.caller = .connecting rest →
    (s.client.isConnected = true ∧ ∃ outError, rest = .done (.error outError)) ∨
    (s.client.isConnected = false ∧ Stage rest s.clientSocket.isValid)
  joining : ∀ {dying : Bool}, s.caller = .joining dying → s.client.isConnected = true
  closing : ∀ {dying : Bool}, s.caller = .closing dying →
    s.client.isConnected = true ∧ s.listener = .absent
  destroyed : s.caller = .destroyed →
    s.client.isConnected = false ∧ s.clientSocket.isValid = false
  terminated : s.terminated = true → s.client.isConnected = true ∧ s.listener ≠ .absent

theorem owned_of_valid {socket : Socket} (valid : socket.isValid = true) :
    socket.owned = [socket.fd] := if_pos (of_decide_eq_true valid)

theorem owned_of_invalid {socket : Socket} (invalid : socket.isValid = false) :
    socket.owned = [] := if_neg (of_decide_eq_false invalid)

/-- The client may use the descriptor that it owns. -/
theorem useSocket_eq (balanced : s.system.Balanced s.clientSocket.owned)
    (valid : s.clientSocket.isValid = true) : s.useSocket = s := by
  have own : s.clientSocket.fd ∈ s.clientSocket.owned := by
    rw [owned_of_valid valid]
    exact List.mem_singleton_self _
  rw [useSocket, balanced.use own]

theorem closeSocket_spec (balanced : s.system.Balanced s.clientSocket.owned) :
    s.closeSocket.system.Balanced [] ∧ s.closeSocket.clientSocket.isValid = false := by
  have own : s.system.Balanced (s.clientSocket.owned ++ []) := (List.append_nil _).symm ▸ balanced
  refine ⟨(Socket.close_balanced own).1, ?_⟩
  unfold closeSocket Socket.close
  split
  · rfl
  · exact decide_eq_false ‹_›

/-- The new descriptor replaces none. -/
theorem setSocket_spec (balanced : s.system.Balanced s.clientSocket.owned)
    (invalid : s.clientSocket.isValid = false) {fd : Fd} (fresh : fd ∉ s.system.inUse) :
    (s.setSocket fd).system.Balanced [fd] ∧ (s.setSocket fd).clientSocket = ⟨fd⟩ := by
  rw [owned_of_invalid invalid] at balanced
  have closed : (s.clientSocket.close (s.system.acquire fd)).2 = s.system.acquire fd := by
    rw [Socket.close, if_neg (of_decide_eq_false invalid)]
  refine ⟨?_, rfl⟩
  simp only [setSocket, Socket.assign, closed]
  exact balanced.acquire fresh

/-- What a call leaves as it was. -/
theorem answer_keeps (outcomes : Outcomes) (s : Lifecycle) {β : Type} (call : Call β) :
    (s.answer outcomes call).2.client = s.client ∧
      (s.answer outcomes call).2.messageHandler = s.messageHandler ∧
      (s.answer outcomes call).2.listener = s.listener ∧
      (s.answer outcomes call).2.terminated = s.terminated := by
  cases call with
  | socket =>
    simp only [answer]
    split <;> exact ⟨rfl, rfl, rfl, rfl⟩
  | _ => exact ⟨rfl, rfl, rfl, rfl⟩

theorem Stage.branch {c : Prop} [Decidable c] {first second : Attempt} (yes : Stage first held)
    (no : Stage second held) : Stage (if c then first else second) held := by
  split
  · exact yes
  · exact no

/-- Each call of `connect` finds the descriptor as it needs it. -/
theorem Stage.answered {β : Type} {call : Call β} {next : β → Attempt} {outcomes : Outcomes}
    (stage : Stage (.act call next) s.clientSocket.isValid)
    (balanced : s.system.Balanced s.clientSocket.owned)
    (possible : possible outcomes s call = true) :
    Stage (next (s.answer outcomes call).1) (s.answer outcomes call).2.clientSocket.isValid ∧
      (s.answer outcomes call).2.system.Balanced (s.answer outcomes call).2.clientSocket.owned := by
  generalize shape : Prog.act call next = rest at stage
  generalize valid : s.clientSocket.isValid = held at stage
  cases stage with
  | openSocket username client =>
    cases shape
    change Stage (if outcomes.socket < 0 then .done (.error (str "Socket creation failed"))
      else Client.resolve username client) _ ∧ _
    simp only [answer]
    by_cases failed : outcomes.socket < 0
    · rw [if_pos failed, if_pos failed, valid]
      exact ⟨.failed _, balanced⟩
    · have fresh : outcomes.socket ∉ s.system.inUse := of_decide_eq_true possible
      obtain ⟨acquired, socket⟩ := setSocket_spec balanced valid fresh
      have good : (⟨outcomes.socket⟩ : Socket).isValid = true :=
        decide_eq_true (Int.not_lt.mp failed)
      rw [if_neg failed, if_neg failed, socket, good, owned_of_valid good]
      exact ⟨.resolve username client, acquired⟩
  | resolve username client =>
    cases shape
    simp only [answer, valid]
    exact ⟨.branch (.giveUp _) (.reach username client), balanced⟩
  | reach username client =>
    cases shape
    simp only [answer, useSocket_eq balanced valid, valid]
    exact ⟨.branch (.giveUp _) (.request username client), balanced⟩
  | request username client =>
    cases shape
    simp only [answer, useSocket_eq balanced valid, valid]
    exact ⟨.branch (.giveUp _) (.await username client), balanced⟩
  | await username client =>
    cases shape
    simp only [answer, useSocket_eq balanced valid, valid]
    refine ⟨?_, balanced⟩
    cases outcomes.receive with
    | none => exact .giveUp _
    | some response => exact .branch (.giveUp _) (.connected rfl)
  | giveUp outError =>
    cases shape
    obtain ⟨closed, invalid⟩ := closeSocket_spec balanced
    simp only [answer, invalid, owned_of_invalid invalid]
    exact ⟨.failed outError, closed⟩
  | failed | connected => cases shape

/-- The listening thread runs only while the client is connected. -/
theorem Sound.connected_of_running (sound : s.Sound) (running : s.listener = .running) :
    s.client.isConnected = true := by
  by_contra apart
  have absent := (sound.disconnected (Bool.not_eq_true _ ▸ apart)).2
  rw [running] at absent
  cases absent

/-- The listening thread uses the descriptor that the client owns. -/
theorem Sound.useHandler_eq (sound : s.Sound) (running : s.listener = .running) :
    s.useHandler = s := by
  obtain ⟨valid, handler⟩ := sound.connected (sound.connected_of_running running)
  have own : s.clientSocket.fd ∈ s.clientSocket.owned := by
    rw [owned_of_valid valid]
    exact List.mem_singleton_self _
  rw [useHandler, handler]
  dsimp only
  rw [sound.balanced.use own, ← handler]

/-- What `disconnect` does first changes no descriptor. -/
theorem Sound.beginDisconnect_eq (sound : s.Sound) (dying : Bool) :
    s.beginDisconnect dying = { s with caller := .joining dying } := by
  unfold beginDisconnect
  by_cases valid : s.clientSocket.isValid = true
  · rw [if_pos valid, useSocket_eq sound.balanced valid]
  · rw [if_neg valid]

/-- A client that is not connected and owns nothing. -/
theorem sound_of_empty (system : s.system.Balanced []) (socket : s.clientSocket.isValid = false)
    (client : s.client.isConnected = false) (handler : s.messageHandler = none)
    (listener : s.listener = .absent) (terminated : s.terminated = false)
    (caller : s.caller = .idle ∨ s.caller = .destroyed) : s.Sound where
  balanced := (owned_of_invalid socket).symm ▸ system
  connected := fun connected => absurd (client.symm.trans connected) nofun
  disconnected := fun _ => ⟨handler, listener⟩
  idle := fun _ _ => socket
  connecting := fun here => by rcases caller with there | there <;> cases here.symm.trans there
  joining := fun here => by rcases caller with there | there <;> cases here.symm.trans there
  closing := fun here => by rcases caller with there | there <;> cases here.symm.trans there
  destroyed := fun _ => ⟨client, socket⟩
  terminated := fun ended => absurd (terminated.symm.trans ended) nofun

theorem destroyMembers_sound (balanced : s.system.Balanced s.clientSocket.owned)
    (client : s.client.isConnected = false) (listener : s.listener = .absent)
    (going : s.terminated = false) : s.destroyMembers.Sound := by
  obtain ⟨closed, invalid⟩ := closeSocket_spec balanced
  refine sound_of_empty closed invalid client rfl listener ?_ (.inr rfl)
  change (s.terminated || decide (s.listener ≠ .absent)) = false
  rw [going, listener]
  rfl

/-- A connected client has begun to disconnect. -/
theorem Sound.joins (sound : s.Sound) (connected : s.client.isConnected = true) (dying : Bool) :
    { s with caller := .joining dying }.Sound :=
  { sound with
    idle := nofun, connecting := nofun, joining := fun _ => connected, closing := nofun
    destroyed := nofun }

theorem connected_of_ready
    (ready : ¬ (!s.client.isConnected || s.messageHandler.isNone) = true) :
    s.client.isConnected = true := by
  by_contra apart
  exact ready (by simp [Bool.not_eq_true _ ▸ apart])

theorem Sound.step (sound : s.Sound) (stepped : s.step move = some after) : after.Sound := by
  unfold Lifecycle.step at stepped
  by_cases ended : s.terminated = true
  · simp [ended] at stepped
  have going : s.terminated = false := Bool.not_eq_true _ ▸ ended
  rw [if_neg ended] at stepped
  split at stepped
  · rename_i username idle
    cases stepped
    refine { sound with
      idle := nofun, joining := nofun, closing := nofun, destroyed := nofun, connecting := ?_ }
    rintro rest ⟨⟩
    rw [Client.connect_eq]
    by_cases connected : s.client.isConnected = true
    · rw [if_pos connected]
      exact .inl ⟨connected, _, rfl⟩
    · have apart : s.client.isConnected = false := Bool.not_eq_true _ ▸ connected
      rw [if_neg connected, sound.idle idle apart]
      exact .inr ⟨apart, .openSocket username s.client⟩
  · rename_i outcomes β call next connecting
    obtain ⟨possible, same⟩ := Option.ite_none_right_eq_some.mp stepped
    cases same
    rcases sound.connecting connecting with ⟨_, _, past⟩ | ⟨apart, stage⟩
    · cases past
    obtain ⟨later, balanced⟩ := stage.answered sound.balanced possible
    obtain ⟨client, handler, listener, terminated⟩ := answer_keeps outcomes s call
    obtain ⟨nobody, absent⟩ := sound.disconnected apart
    exact {
      balanced
      connected := fun connected => absurd ((client ▸ apart).symm.trans connected) nofun
      disconnected := fun _ => ⟨handler.trans nobody, listener.trans absent⟩
      idle := nofun
      connecting := by
        rintro rest ⟨⟩
        exact .inr ⟨client ▸ apart, later⟩
      joining := nofun
      closing := nofun
      destroyed := nofun
      terminated := fun past => absurd ((terminated.trans going).symm.trans past) nofun }
  · rename_i outError connecting
    cases stepped
    refine { sound with
      idle := fun _ apart => ?_, connecting := nofun, joining := nofun, closing := nofun
      destroyed := nofun }
    rcases sound.connecting connecting with ⟨connected, _⟩ | ⟨_, stage⟩
    · exact absurd (connected.symm.trans apart) nofun
    · generalize s.clientSocket.isValid = held at stage
      cases stage
      rfl
  · rename_i client connecting
    cases stepped
    rcases sound.connecting connecting with ⟨_, _, past⟩ | ⟨apart, stage⟩
    · cases past
    generalize valid : s.clientSocket.isValid = held at stage
    cases stage with
    | connected connected =>
      exact {
        balanced := sound.balanced
        connected := fun _ => ⟨valid, rfl⟩
        disconnected := fun apart => absurd (connected.symm.trans apart) nofun
        idle := fun _ apart => absurd (connected.symm.trans apart) nofun
        connecting := nofun
        joining := nofun
        closing := nofun
        destroyed := nofun
        terminated := fun past => absurd (going.symm.trans past) nofun }
  · rename_i idle
    split_ifs at stepped with nothing joinable
    · cases stepped
      exact sound
    · cases stepped
      have connected := connected_of_ready nothing
      exact { sound with terminated := fun _ => ⟨connected, joinable⟩ }
    · cases stepped
      have connected := connected_of_ready nothing
      exact { sound with
        disconnected := fun apart => absurd (connected.symm.trans apart) nofun
        closing := fun here => absurd (idle.symm.trans here) nofun
        terminated := fun past => absurd (going.symm.trans past) nofun }
  · rename_i idle
    split_ifs at stepped with apart
    · cases stepped
      exact sound
    · rw [sound.beginDisconnect_eq] at stepped
      cases stepped
      have connected : s.client.isConnected = true := by simpa using apart
      exact sound.joins connected _
  · rename_i idle
    split_ifs at stepped with apart
    · cases stepped
      have apart : s.client.isConnected = false := by simpa using apart
      exact destroyMembers_sound sound.balanced apart (sound.disconnected apart).2 going
    · rw [sound.beginDisconnect_eq] at stepped
      cases stepped
      have connected : s.client.isConnected = true := by simpa using apart
      exact sound.joins connected _
  · rename_i dying joining
    split_ifs at stepped
    cases stepped
    have connected := sound.joining joining
    exact { sound with
      disconnected := fun apart => absurd (connected.symm.trans apart) nofun
      idle := nofun
      connecting := nofun
      joining := nofun
      closing := fun _ => ⟨connected, rfl⟩
      destroyed := nofun
      terminated := fun past => absurd (going.symm.trans past) nofun }
  · rename_i dying closing
    obtain ⟨connected, absent⟩ := sound.closing closing
    obtain ⟨closed, invalid⟩ := closeSocket_spec sound.balanced
    cases stepped
    split
    · exact destroyMembers_sound ((owned_of_invalid invalid).symm ▸ closed) rfl absent going
    · exact sound_of_empty closed invalid rfl rfl absent going (.inl rfl)
  · rename_i frame caller
    split_ifs at stepped with running
    have same := sound.useHandler_eq running
    have connected := sound.connected_of_running running
    split at stepped
    · rw [same] at stepped
      cases stepped
      refine { sound with disconnected := ?_, closing := ?_, terminated := ?_ }
      · exact fun apart => absurd (connected.symm.trans apart) nofun
      · intro dying here
        have absent := (sound.closing here).2
        rw [running] at absent
        cases absent
      · exact fun past => absurd (going.symm.trans past) nofun
    · rw [same, same, ite_self] at stepped
      exact Option.some.inj stepped ▸ sound
  · cases stepped

theorem start_sound (serverAddress : Str) : (start serverAddress).Sound :=
  sound_of_empty ⟨.refl _, List.nodup_nil, rfl⟩ rfl rfl rfl rfl rfl (.inl rfl)

/-- Whatever is called and whatever the system answers, neither thread uses or closes a
descriptor that is not the client's own, a handler is there as long as the listening
thread uses it, and a destroyed client leaves no descriptor open. The process is ended
only by a second `startListening` on one connection. -/
theorem descriptors_safe {serverAddress : Str} {moves : List Move}
    (run : Run step Free (start serverAddress) moves s) :
    s.system.faults = 0 ∧ s.system.inUse.Perm s.clientSocket.owned ∧
      (s.listener = .running → s.messageHandler = some s.clientSocket.fd ∧
        s.clientSocket.fd ∈ s.system.inUse) ∧
      (s.caller = .destroyed → s.system.inUse = [] ∧ s.listener = .absent) ∧
      (s.terminated = true → s.client.isConnected = true ∧ s.listener ≠ .absent) := by
  have sound : s.Sound :=
    run.invariant (fun held _ stepped => held.step stepped) (start_sound serverAddress)
  refine ⟨sound.balanced.faultless, sound.balanced.same, fun running => ?_, fun gone => ?_,
    sound.terminated⟩
  · obtain ⟨valid, handler⟩ := sound.connected (sound.connected_of_running running)
    refine ⟨handler, sound.balanced.same.mem_iff.mpr ?_⟩
    rw [owned_of_valid valid]
    exact List.mem_singleton_self _
  · obtain ⟨apart, invalid⟩ := sound.destroyed gone
    have nothing := sound.balanced.same
    rw [owned_of_invalid invalid] at nothing
    exact ⟨nothing.eq_nil, (sound.disconnected apart).2⟩

/-- The client fails to connect, succeeds with the same number, and answers a PING. -/
theorem descriptors_safe_of_two_attempts : ∃ s : Lifecycle, s.clientSocket.fd = 3 ∧
    s.listener = .running ∧ s.system.faults = 0 ∧ s.clientSocket.fd ∈ s.system.inUse := by
  let answered : Outcomes := { receive := some (str "OK;Connected as ann") }
  obtain ⟨s, ran, socket, running⟩ := evaluated (o := execute step (start (str "127.0.0.1"))
      [.connect (str "ann"), .call {}, .call {}, .call { connect := false }, .call {}, .call {},
        .connect (str "ann"), .call {}, .call {}, .call {}, .call {}, .call answered, .call {},
        .startListening, .listen (some (str "PING"))])
    (P := fun s => s.clientSocket.fd = 3 ∧ s.listener = .running) (by decide)
  obtain ⟨faultless, _, used, _⟩ := descriptors_safe (execute_run _ ran)
  exact ⟨s, socket, running, faultless, (used running).2⟩

end Lifecycle
end SocketMessaging
