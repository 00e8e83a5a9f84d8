import SocketMessaging.Client.Handshake
import SocketMessaging.Server.Hidden

/-! How a login proceeds at both ends. Until its name is registered nobody but its
own loop can reach the connection, since all others find numbers by looking up
names. From then until the confirmation it is visible, and anybody may write first. -/
namespace SocketMessaging
open Prog Transition Utils MessageParser CommandHandler

namespace Client

theorem Failing.not_ok {result : Except Str Client} (failing : Failing (.done result)) :
    ¬ ∃ client, result = .ok client := by
  rintro ⟨client, rfl⟩
  cases failing

theorem Early.not_ok {username : Str} {result : Except Str Client}
    (early : Early username (.done result)) : ¬ ∃ client, result = .ok client := by
  cases early with
  | failing failing => exact failing.not_ok

end Client

/-- A name's CONNECT is read as a login of that name. -/
theorem handleMessage_build {username : Str} (text : NameText username) (socket : Fd) :
    handleMessage (build (str "CONNECT") [username]) socket = checkValid username socket := by
  have free : ∀ field ∈ [str "CONNECT", username], (59 : UInt8) ∉ field := by
    simp only [List.forall_mem_cons, List.not_mem_nil, false_implies, implies_true, and_true]
    exact ⟨by decide, text.no_delimiter⟩
  have parsed := parse_build_free (.inl (by decide)) free
  have known : commands.lookup (str "CONNECT") = some handleConnect := rfl
  simp only [handleMessage, parsed, if_true, executeCommand, known, handleConnect_eq,
    text.sanitize_eq]

/-- The client takes the confirmation for success. -/
theorem conclude_connectedAs {username : Str} (text : NameText username) (client : Client) :
    Client.conclude username client (some (connectedAs username)) =
      .done (.ok { client with isConnected := true, username }) := by
  have free : ∀ field ∈ [str "OK", str "Connected as " ++ username], (59 : UInt8) ∉ field := by
    simp only [List.forall_mem_cons, List.not_mem_nil, false_implies, implies_true, and_true]
    refine ⟨by decide, fun member => ?_⟩
    rcases List.mem_append.mp member with fixed | name
    · exact absurd fixed (by decide)
    · exact text.no_delimiter name
  have parsed := parse_build_free (.inl (by decide)) free
  rw [← connectedAs] at parsed
  simp [Client.conclude, parsed]

/-- The client takes any refusal for a failure. -/
theorem conclude_refusal {frame : Str} (refusal : frame ∈ Handshake.refusals) (username : Str)
    (client : Client) : Client.Failing (Client.conclude username client (some frame)) := by
  have error : (parse frame).command ≠ str "OK" := by
    revert frame
    decide
  unfold Client.conclude
  dsimp only
  rw [if_pos (by simp [error])]
  exact .closing _

theorem admissible_refusal {frame : Str} (refusal : frame ∈ Handshake.refusals) :
    NetworkStream.Admissible frame := by
  revert frame
  decide

theorem admissible_connectedAs {username : Str} (short : username.length ≤ 100) :
    NetworkStream.Admissible (connectedAs username) := by
  have length : (connectedAs username).length = username.length + 17 := by
    rw [connectedAs, build_length]
    simp [str]
    omega
  rw [NetworkStream.Admissible, length, Constants.maxMessageSize]
  omega

namespace Handshake
variable {username : Str} {s after : Handshake} {env : Env}

/-- No loop has read the client's CONNECT, if it has sent one. -/
inductive Pending (username : Str) (s : Handshake) : Prop where
  | early : Client.Early username s.client → s.outgoing = [] → Pending username s
  | asked (client : Client) : s.client = Client.await username client →
      s.outgoing = [build (str "CONNECT") [username]] → Pending username s
  | stopped : Client.Failing s.client → s.server.world.server.status ≠ .running →
      Pending username s

/-- The client's CONNECT has been read and not been answered. -/
inductive Waiting (username : Str) (s : Handshake) : Prop where
  | asked (client : Client) : s.client = Client.await username client → Waiting username s
  | stopped : Client.Failing s.client → s.server.world.server.status ≠ .running →
      Waiting username s

/-- What the loop can have left of the client's CONNECT before it has registered
the name. -/
inductive Checking (username : Str) (socket : Fd) : Handler → Prop where
  | valid : Checking username socket (checkValid username socket)
  | banned : Checking username socket (checkBanned username socket)
  | taken : Checking username socket (checkTaken username socket)
  | enter : Checking username socket (enterName username socket)
  | refuse {frame : Str} {next : Bool → Handler} : frame ∈ refusals →
      (∀ sent, (next sent).Only Action.Unconfirming) →
      Checking username socket (.act (.send socket frame) next)

/-- How far the login has got. -/
inductive Phase (username : Str) (s : Handshake) : Prop where
  | unaccepted : s.conn = none → Pending username s → Phase username s
  | unread {conn : ConnId} {own : Worker} : s.conn = some conn →
      s.server.workers[conn]? = some own → s.server.Hidden own.socket conn →
      own.rest = .done () ∨ own.rest = handleReceiveFailure own.socket → Pending username s →
      Phase username s
  | checking {conn : ConnId} {socket : Fd} {rest : Handler} : s.conn = some conn →
      s.server.workers[conn]? = some ⟨socket, .running false rest⟩ →
      s.server.Hidden socket conn → Checking username socket rest → s.outgoing = [] →
      Waiting username s → Phase username s
  | registered {conn : ConnId} {socket : Fd} {client : Client} : s.conn = some conn →
      s.server.workers[conn]? = some ⟨socket, .running false (confirmLogin username socket)⟩ →
      s.server.Private socket conn → .register username (some conn) ∈ s.server.world.os.log →
      s.server.world.server.status = .running → s.client = Client.await username client →
      Phase username s
  | confirmed {conn : ConnId} : s.conn = some conn →
      (s.server.world.framesTo conn).head? = some (connectedAs username) →
      .register username (some conn) ∈ s.server.world.os.log →
      (∃ client, s.client = Client.await username client) ∨
        (∃ client, s.client = .done (.ok client)) → Phase username s
  | refused {conn : ConnId} {frame : Str} : s.conn = some conn →
      (s.server.world.framesTo conn).head? = some frame → frame ∈ refusals →
      .register username (some conn) ∉ s.server.world.os.log → s.outgoing = [] →
      (∀ {i : ConnId} {worker : Worker}, s.server.workers[i]? = some worker →
        s.server.world.os.holder worker.socket = some conn →
        worker.rest.Only Action.Unconfirming) →
      (∃ client, s.client = Client.await username client) ∨ Client.Failing s.client →
      Phase username s

theorem Pending.not_ok (pending : Pending username s) {result : Except Str Client}
    (done : s.client = .done result) : ¬ ∃ client, result = .ok client := by
  cases pending with
  | early early => exact (done ▸ early).not_ok
  | asked client awaits => cases awaits.symm.trans done
  | stopped failing => exact (done ▸ failing).not_ok

theorem Waiting.not_ok (waiting : Waiting username s) {result : Except Str Client}
    (done : s.client = .done result) : ¬ ∃ client, result = .ok client := by
  cases waiting with
  | asked client awaits => cases awaits.symm.trans done
  | stopped failing => exact (done ▸ failing).not_ok

theorem arrived_eq {conn : ConnId} (accepted : s.conn = some conn) :
    s.arrived = s.server.world.framesTo conn := by
  rw [arrived, accepted]

theorem registered_iff {conn : ConnId} (accepted : s.conn = some conn) :
    Registered username s ↔ .register username (some conn) ∈ s.server.world.os.log := by
  simp [Registered, accepted]

theorem Phase.agreed (phase : Phase username s) : Agreed username s := by
  cases phase with
  | unaccepted absent pending =>
    have unregistered : ¬ Registered username s := by simp [Registered, absent]
    refine ⟨fun done => iff_of_false (pending.not_ok done) unregistered, fun first => ?_⟩
    simp [arrived, absent] at first
  | unread accepted _ hidden _ pending =>
    have unregistered := mt (registered_iff accepted).mp (hidden.unregistered username)
    refine ⟨fun done => iff_of_false (pending.not_ok done) unregistered, fun first => ?_⟩
    simp [arrived_eq accepted, hidden.silent] at first
  | checking accepted _ hidden _ _ waiting =>
    have unregistered := mt (registered_iff accepted).mp (hidden.unregistered username)
    refine ⟨fun done => iff_of_false (waiting.not_ok done) unregistered, fun first => ?_⟩
    simp [arrived_eq accepted, hidden.silent] at first
  | registered accepted _ alone _ _ awaits =>
    refine ⟨fun done => ?_, fun first => ?_⟩
    · cases awaits.symm.trans done
    · simp [arrived_eq accepted, alone.silent] at first
  | confirmed accepted head logged ends =>
    have registered := (registered_iff accepted).mpr logged
    refine ⟨fun done => ?_, fun first => .inl ⟨?_, registered⟩⟩
    · rcases ends with ⟨client, awaits⟩ | ⟨client, succeeds⟩
      · cases awaits.symm.trans done
      · cases succeeds.symm.trans done
        exact iff_of_true ⟨client, rfl⟩ registered
    · rw [arrived_eq accepted, head] at first
      exact (Option.some.inj first).symm
  | refused accepted head refusal absent _ _ ends =>
    have unregistered := mt (registered_iff accepted).mp absent
    refine ⟨fun done => ?_, fun first => .inr ⟨?_, unregistered⟩⟩
    · rcases ends with ⟨client, awaits⟩ | failing
      · cases awaits.symm.trans done
      · exact iff_of_false (done ▸ failing).not_ok unregistered
    · rw [arrived_eq accepted, head] at first
      exact Option.some.inj first ▸ refusal

section ClientMoves
variable {answers : Client.Answers} {β : Type} {call : Client.Call β} {next : β → Client.Attempt}
  {result : β} {moved : Handshake}

/-- A call of the client leaves the server's side alone. -/
theorem answer_keeps (answered : s.answer answers call = some (result, moved)) :
    moved.server = s.server ∧ moved.conn = s.conn := by
  cases call with
  | send message =>
    cases answered
    split <;> exact ⟨rfl, rfl⟩
  | receive =>
    simp only [answer] at answered
    split at answered
    · cases answered
      exact ⟨rfl, rfl⟩
    · obtain ⟨_, same⟩ := Option.ite_none_right_eq_some.mp answered
      cases same
      exact ⟨rfl, rfl⟩
  | _ =>
    cases answered
    exact ⟨rfl, rfl⟩

/-- What the client makes of the first frame, or of the end of the connection. -/
theorem answer_receive {response : Option Str}
    (answered : s.answer answers .receive = some (response, moved)) : moved = s ∧
      ((∃ frame, s.arrived.head? = some frame ∧
        response = if NetworkStream.Admissible frame then some frame else none) ∨
      s.arrived = [] ∧ s.Cut ∧ response = none) := by
  simp only [answer] at answered
  split at answered
  · rename_i frame rest arrived
    cases answered
    exact ⟨rfl, .inl ⟨frame, by rw [arrived, List.head?_cons], rfl⟩⟩
  · rename_i arrived
    obtain ⟨cut, same⟩ := Option.ite_none_right_eq_some.mp answered
    cases same
    exact ⟨rfl, .inr ⟨arrived, cut, rfl⟩⟩

/-- A failing attempt makes at most one more call, which closes the socket. -/
theorem failing_client (failing : Client.Failing s.client) (program : s.client = .act call next)
    (answered : s.answer answers call = some (result, moved)) :
    Client.Failing (next result) ∧ moved.outgoing = s.outgoing := by
  generalize s.client = rest at failing program
  cases failing with
  | closing outError =>
    cases program
    cases answered
    exact ⟨.failed outError, rfl⟩
  | failed => cases program

/-- Up to its CONNECT the client depends on nothing that the server does. -/
theorem Pending.early_client (early : Client.Early username s.client) (empty : s.outgoing = [])
    (program : s.client = .act call next) (answered : s.answer answers call = some (result, moved)) :
    Pending username { moved with client := next result } := by
  have fails := fun failing : Client.Failing s.client => failing_client failing program answered
  generalize s.client = rest at early program fails
  cases early with
  | openSocket client =>
    cases program
    cases answered
    dsimp only
    split
    · exact .early (.failing (.failed _)) empty
    · exact .early (.resolve client) empty
  | resolve client =>
    cases program
    cases answered
    dsimp only
    split
    · exact .early (.failing (.closing _)) empty
    · exact .early (.reach client) empty
  | reach client =>
    cases program
    cases answered
    dsimp only
    split
    · exact .early (.failing (.closing _)) empty
    · exact .early (.request client) empty
  | request client =>
    cases program
    cases answered
    cases sent : answers.send with
    | false => exact .early (.failing (.closing _)) empty
    | true => exact .asked client rfl (congrArg (· ++ [_]) empty)
  | failing failing =>
    obtain ⟨failing, same⟩ := fails failing
    exact .early (.failing failing) (same.trans empty)

theorem Pending.client (pending : Pending username s) (program : s.client = .act call next)
    (answered : s.answer answers call = some (result, moved)) (silent : s.arrived = [])
    (cut : s.Cut → s.server.world.server.status ≠ .running) :
    Pending username { moved with client := next result } := by
  cases pending with
  | early early empty => exact early_client early empty program answered
  | asked client awaits =>
    cases awaits.symm.trans program
    obtain ⟨rfl, ⟨frame, head, _⟩ | ⟨_, closed, rfl⟩⟩ := answer_receive answered
    · rw [silent] at head
      cases head
    · exact .stopped (.closing _) (cut closed)
  | stopped failing ended =>
    have same := (answer_keeps answered).1
    exact .stopped (failing_client failing program answered).1 (same.symm ▸ ended)

theorem Waiting.client (waiting : Waiting username s) (program : s.client = .act call next)
    (answered : s.answer answers call = some (result, moved)) (silent : s.arrived = [])
    (cut : s.Cut → s.server.world.server.status ≠ .running) :
    Waiting username { moved with client := next result } ∧ moved.outgoing = s.outgoing := by
  cases waiting with
  | asked client awaits =>
    cases awaits.symm.trans program
    obtain ⟨rfl, ⟨frame, head, _⟩ | ⟨_, closed, rfl⟩⟩ := answer_receive answered
    · rw [silent] at head
      cases head
    · exact ⟨.stopped (.closing _) (cut closed), rfl⟩
  | stopped failing ended =>
    have same := (answer_keeps answered).1
    obtain ⟨failing, kept⟩ := failing_client failing program answered
    exact ⟨.stopped failing (same.symm ▸ ended), kept⟩

/-- While the server holds its end open, the client sees it closed only if the server has stopped. -/
theorem cut_of_open {conn : ConnId} {own : Worker} (accepted : s.conn = some conn)
    (present : s.server.workers[conn]? = some own)
    (user : s.server.world.os.user own.socket = some conn) (cut : s.Cut) :
    s.server.world.server.status ≠ .running := by
  rcases cut with ended | ⟨other, same, worker, found, closed⟩
  · exact ended
  · cases accepted.symm.trans same
    cases present.symm.trans found
    exact absurd user closed

theorem Phase.clientMove (text : NameText username) (short : username.length ≤ 100)
    (phase : Phase username s) (program : s.client = .act call next)
    (answered : s.answer answers call = some (result, moved)) :
    Phase username { moved with client := next result } := by
  obtain ⟨server, conn⟩ := answer_keeps answered
  cases phase with
  | unaccepted absent pending =>
    have silent : s.arrived = [] := by rw [arrived, absent]
    refine .unaccepted (conn.trans absent) (pending.client program answered silent fun cut => ?_)
    rcases cut with ended | ⟨other, same, _⟩
    · exact ended
    · cases absent.symm.trans same
  | @unread conn' own accepted present hidden quiet pending =>
    have silent := (arrived_eq accepted).trans hidden.silent
    refine .unread (conn.trans accepted) (server ▸ present) (server ▸ hidden) quiet ?_
    exact pending.client program answered silent (cut_of_open accepted present hidden.user)
  | checking accepted present hidden checks empty waiting =>
    have silent := (arrived_eq accepted).trans hidden.silent
    obtain ⟨waiting, kept⟩ :=
      waiting.client program answered silent (cut_of_open accepted present hidden.user)
    exact .checking (conn.trans accepted) (server ▸ present) (server ▸ hidden) checks
      (kept.trans empty) waiting
  | registered accepted present alone logged running awaits =>
    have silent := (arrived_eq accepted).trans alone.silent
    cases awaits.symm.trans program
    obtain ⟨rfl, ⟨frame, head, _⟩ | ⟨_, closed, rfl⟩⟩ := answer_receive answered
    · rw [silent] at head
      cases head
    · exact absurd running (cut_of_open accepted present alone.user closed)
  | confirmed accepted head logged ends =>
    refine .confirmed (conn.trans accepted) (server ▸ head) (server ▸ logged) (.inr ?_)
    rcases ends with ⟨client, awaits⟩ | ⟨client, succeeds⟩
    · cases awaits.symm.trans program
      have first := (congrArg List.head? (arrived_eq accepted)).trans head
      obtain ⟨_, ⟨frame, same, rfl⟩ | ⟨silent, _⟩⟩ := answer_receive answered
      · cases first.symm.trans same
        rw [if_pos (admissible_connectedAs short)]
        exact ⟨_, conclude_connectedAs text client⟩
      · rw [silent] at first
        cases first
    · cases succeeds.symm.trans program
  | refused accepted head refusal absent empty settled ends =>
    have failing : Client.Failing (next result) ∧ moved.outgoing = s.outgoing := by
      rcases ends with ⟨client, awaits⟩ | failing
      · cases awaits.symm.trans program
        have first := (congrArg List.head? (arrived_eq accepted)).trans head
        obtain ⟨same, ⟨frame, read, rfl⟩ | ⟨silent, _⟩⟩ := answer_receive answered
        · cases first.symm.trans read
          rw [if_pos (admissible_refusal refusal)]
          exact ⟨conclude_refusal refusal username client, congrArg Handshake.outgoing same⟩
        · rw [silent] at first
          cases first
      · exact failing_client failing program answered
    exact .refused (conn.trans accepted) (server ▸ head) refusal (server ▸ absent)
      (failing.2.trans empty) (server ▸ settled) (.inr failing.1)

end ClientMoves

theorem Pending.keep (pending : Pending username s) {t : Handshake}
    (running : s.server.world.server.status = .running) (client : t.client = s.client)
    (outgoing : t.outgoing = s.outgoing) : Pending username t := by
  cases pending with
  | early early empty => exact .early (client.symm ▸ early) (outgoing.trans empty)
  | asked owner awaits sent => exact .asked owner (client.trans awaits) (outgoing.trans sent)
  | stopped _ ended => exact absurd running ended

theorem Waiting.keep (waiting : Waiting username s) {t : Handshake}
    (running : s.server.world.server.status = .running) (client : t.client = s.client) :
    Waiting username t := by
  cases waiting with
  | asked owner awaits => exact .asked owner (client.trans awaits)
  | stopped _ ended => exact absurd running ended

/-- The number that the client's connection is given is nobody else's. -/
theorem Phase.accept (tracked : s.server.Tracked) (phase : Phase username s) (absent : s.conn = none)
    {socket : Fd} {server : Threads} (accepted : s.server.step (env, .accept socket) = some server)
    (undisturbed : Undisturbed s (env, .accept socket)) :
    Phase username { s with server, conn := some s.server.workers.length } := by
  obtain ⟨unread, unnamed, avoided⟩ := undisturbed
  obtain ⟨running, stepped⟩ := Threads.step_cases accepted
  obtain ⟨silent, unregistered⟩ := tracked.future (Nat.le_refl _)
  cases stepped with
  | accept nonneg free =>
    cases phase with
    | unaccepted _ pending =>
      refine .unread rfl List.getElem?_concat_length ⟨⟨nonneg, Function.update_self .., ?_, silent⟩,
        unnamed, avoided, unregistered⟩ (.inl rfl) (pending.keep running rfl rfl)
      intro i worker found live apart
      rcases Threads.workers_append found with old | ⟨same, _⟩
      · exact unread worker (List.mem_of_getElem? old) live
      · exact absurd same apart
    | unread accepted | checking accepted | registered accepted | confirmed accepted
    | refused accepted => cases absent.symm.trans accepted

section ServerMoves
variable {move : SocketMessaging.Move} {server : Threads} {conn : ConnId}

theorem outgoingAfter_of_empty (empty : s.outgoing = []) (move : SocketMessaging.Move) :
    s.outgoingAfter move = [] := by
  cases move with
  | receive i raw =>
    rw [outgoingAfter, empty]
    split <;> rfl
  | _ => exact empty

/-- Another loop reads nothing from a connection whose number is its own loop's alone. -/
theorem outgoingAfter_other (tracked : s.server.Tracked) (accepted : s.conn = some conn) {own : Worker}
    (present : s.server.workers[conn]? = some own) (hidden : s.server.Hidden own.socket conn)
    (stepped : Threads.Stepped env s.server move server) (other : move.loop ≠ some conn) :
    s.outgoingAfter move = s.outgoing := by
  cases stepped with
  | @receive i raw socket user found =>
    apply if_neg
    rintro ⟨_, same, worker, reads, used⟩
    cases accepted.symm.trans same
    have apart : i ≠ conn := fun same => other (same ▸ rfl)
    cases found.symm.trans reads
    exact hidden.unread found rfl apart (tracked.number present (tracked.held used))
  | _ => rfl

/-- The loop reads the client's CONNECT, the only frame that it can read. -/
theorem Phase.asked (text : NameText username) (accepted : s.conn = some conn) {socket : Fd}
    (present : s.server.workers[conn]? = some ⟨socket, .receiving⟩)
    (hidden : s.server.Hidden socket conn) (pending : Pending username s)
    (running : s.server.world.server.status = .running) {raw : Str}
    (first : s.outgoing.head? = some raw) :
    Phase username { s with
      server := s.server.setActivity conn (.running false (handleMessage raw socket))
      outgoing := s.outgoing.tail } := by
  cases pending with
  | early _ empty =>
    rw [empty] at first
    cases first
  | asked client awaits sent =>
    rw [sent] at first
    cases first
    rw [handleMessage_build text, sent]
    exact .checking accepted (Threads.workers_setActivity _ present) (hidden.setOwn _) .valid rfl
      (.asked client awaits)
  | stopped _ ended => exact absurd running ended

theorem Phase.unread_server (text : NameText username) (tracked : s.server.Tracked)
    (accepted : s.conn = some conn) {own : Worker} (present : s.server.workers[conn]? = some own)
    (hidden : s.server.Hidden own.socket conn)
    (quiet : own.rest = .done () ∨ own.rest = handleReceiveFailure own.socket)
    (pending : Pending username s) (admits : s.Admits move)
    (running : s.server.world.server.status = .running)
    (stepped : Threads.Stepped env s.server move server) :
    Phase username { s with server, outgoing := s.outgoingAfter move } := by
  by_cases moves : move.loop = some conn
  case neg =>
    obtain ⟨hidden', kept⟩ := hidden.step tracked present rfl stepped moves
    have outgoing := outgoingAfter_other tracked accepted present hidden stepped moves
    exact .unread accepted kept hidden' quiet (pending.keep running rfl outgoing)
  cases stepped with
  | accept | start | performTask | finishTask => cases moves
  | @receive i raw socket user found used admissible =>
    obtain rfl := Option.some.inj moves
    cases found.symm.trans present
    have reads : s.Reads i := ⟨i, accepted, _, present, hidden.user⟩
    have emptied : s.outgoingAfter (.receive i raw) = s.outgoing.tail := if_pos reads
    rw [emptied]
    exact asked text accepted present hidden pending running (admits reads)
  | @receiveFailure i socket found =>
    obtain rfl := Option.some.inj moves
    cases found.symm.trans present
    exact .unread accepted (Threads.workers_setActivity _ present) (hidden.setOwn _) (.inr rfl)
      (pending.keep running rfl rfl)
  | @perform i socket last β action next found =>
    obtain rfl := Option.some.inj moves
    cases found.symm.trans present
    rcases quiet with done | failure
    · cases done
    · have failure : Prog.act action next = .act (.getUsernameBySocket socket) fun username =>
          if username ≠ [] then handleDisconnect [] socket else .done () := failure
      cases failure
      refine .unread accepted (Threads.workers_setActivity _ present) (hidden.setOwn _) (.inl ?_)
        (pending.keep running rfl rfl)
      exact if_neg (not_not.mpr (hidden.nameless env))
  | @finish i socket last found =>
    obtain rfl := Option.some.inj moves
    cases found.symm.trans present
    refine .unread accepted (Threads.workers_setActivity _ present) (hidden.setOwn _) (.inl ?_)
      (pending.keep running rfl rfl)
    cases last <;> rfl

/-- A write of the connection's own loop arrives as the next frame. -/
theorem framesTo_send {socket : Fd} {w : World} (nonneg : 0 ≤ socket)
    (user : w.os.user socket = some conn) (env : Env) (frame : Str) :
    (w.send env socket frame).2.framesTo conn = w.framesTo conn ++ [frame] := by
  have open' : ¬ socket < 0 := Int.not_lt.mpr nonneg
  have log : (w.send env socket frame).2.os.log =
      w.os.log ++ [.send socket (some conn) frame (World.transferred env socket frame w)] := by
    simp only [World.send, open', if_false, user]
    rfl
  rw [World.framesTo_append log]
  simp [Event.frameTo]

/-- The loop registers the name, which makes the connection visible. -/
theorem Phase.entered (tracked : s.server.Tracked) (accepted : s.conn = some conn) {socket : Fd}
    (present : s.server.workers[conn]? = some ⟨socket, .running false (enterName username socket)⟩)
    (hidden : s.server.Hidden socket conn) (waiting : Waiting username s)
    (running : s.server.world.server.status = .running) (outgoing : List Str) :
    Phase username { s with
      server := Threads.setActivity conn (.running false (confirmLogin username socket))
        { s.server with world := (exec env (.registerClient username socket) s.server.world).2 }
      outgoing } := by
  have log : (exec env (.registerClient username socket) s.server.world).2.os.log =
    s.server.world.os.log ++ [.register username (s.server.world.os.holder socket)] := rfl
  have alone : Threads.Private socket conn { s.server with
      world := (exec env (.registerClient username socket) s.server.world).2 } :=
    hidden.toPrivate.world rfl ((World.framesTo_append log).trans (List.append_nil _))
  have logged : .register username (some conn) ∈
      (exec env (.registerClient username socket) s.server.world).2.os.log := by
    rw [log, tracked.held hidden.user]
    exact List.mem_append_right _ (List.mem_singleton_self _)
  cases waiting with
  | asked client awaits =>
    exact .registered accepted (Threads.workers_setActivity _ present) (alone.setOwn _) logged
      running awaits
  | stopped _ ended => exact absurd running ended

/-- The loop refuses the login. Nothing is left that could register a name for
the connection, since its client sends nothing more. -/
theorem Phase.refuses (tracked : s.server.Tracked) (accepted : s.conn = some conn) {socket : Fd}
    {frame : Str} {next : Bool → Handler}
    (present : s.server.workers[conn]? = some ⟨socket, .running false (.act (.send socket frame) next)⟩)
    (hidden : s.server.Hidden socket conn) (refusal : frame ∈ refusals)
    (quiet : ∀ sent, (next sent).Only Action.Unconfirming) (waiting : Waiting username s)
    (running : s.server.world.server.status = .running) {outgoing : List Str} (empty : outgoing = []) :
    Phase username { s with
      server := Threads.setActivity conn
        (.running false (next (exec env (.send socket frame) s.server.world).1))
        { s.server with world := (exec env (.send socket frame) s.server.world).2 }
      outgoing } := by
  have head : ((s.server.world.send env socket frame).2.framesTo conn).head? = some frame := by
    rw [framesTo_send hidden.nonneg hidden.user, hidden.silent]
    rfl
  have absent : .register username (some conn) ∉ (s.server.world.send env socket frame).2.os.log := by
    obtain ⟨events, grown, sent⟩ := s.server.world.log_sent env socket frame
    intro member
    rcases List.mem_append.mp (grown ▸ member) with old | new
    · exact hidden.unregistered username old
    · obtain ⟨taken, same⟩ := sent _ new
      cases same
  refine .refused accepted head refusal absent empty ?_ ?_
  · intro j worker stands holds
    rcases Threads.workers_cases present stands with ⟨_, rfl⟩ | ⟨apart, other⟩
    · exact quiet _
    · have number := tracked.number present ((congrFun (exec_holder env _ _) _).symm.trans holds)
      cases live : worker.live with
      | true => exact absurd number (hidden.unread other live apart)
      | false => exact Threads.rest_of_returned live ▸ trivial
  · cases waiting with
    | asked client awaits => exact .inl ⟨client, awaits⟩
    | stopped _ ended => exact absurd running ended

theorem Phase.checking_server (tracked : s.server.Tracked) (accepted : s.conn = some conn)
    {socket : Fd} {rest : Handler}
    (present : s.server.workers[conn]? = some ⟨socket, .running false rest⟩)
    (hidden : s.server.Hidden socket conn) (checks : Checking username socket rest)
    (empty : s.outgoing = []) (waiting : Waiting username s)
    (running : s.server.world.server.status = .running)
    (stepped : Threads.Stepped env s.server move server) :
    Phase username { s with server, outgoing := s.outgoingAfter move } := by
  have outgoing := outgoingAfter_of_empty empty move
  by_cases moves : move.loop = some conn
  case neg =>
    obtain ⟨hidden', kept⟩ := hidden.step tracked present rfl stepped moves
    exact .checking accepted kept hidden' checks outgoing (waiting.keep running rfl)
  cases stepped with
  | accept | start | performTask | finishTask => cases moves
  | receive found | receiveFailure found =>
    obtain rfl := Option.some.inj moves
    cases found.symm.trans present
  | finish found =>
    obtain rfl := Option.some.inj moves
    cases found.symm.trans present
    cases checks
  | @perform i number last β action next found =>
    obtain rfl := Option.some.inj moves
    cases found.symm.trans present
    have goOn : ∀ {rest : Handler}, Checking username socket rest → Phase username { s with
        server := s.server.setActivity i (.running false rest)
        outgoing := s.outgoingAfter (.advance i) } := fun checks =>
      .checking accepted (Threads.workers_setActivity _ present) (hidden.setOwn _) checks outgoing
        (waiting.keep running rfl)
    have declines : ∀ {frame : Str} {next : Bool → Handler}, frame ∈ refusals →
        (∀ sent, (next sent).Only Action.Unconfirming) →
        Checking username socket (.act (.send socket frame) next) := .refuse
    cases checks with
    | valid =>
      apply goOn
      dsimp only
      split
      · exact declines (by decide) fun _ => trivial
      · exact .banned
    | banned =>
      apply goOn
      dsimp only
      split
      · exact declines (by decide) fun _ => ⟨trivial, fun _ => trivial⟩
      · exact .taken
    | taken =>
      apply goOn
      dsimp only
      split
      · exact declines (by decide) fun _ => trivial
      · exact .enter
    | enter => exact entered tracked accepted present hidden waiting running _
    | refuse refusal quiet =>
      exact refuses tracked accepted present hidden refusal quiet waiting running outgoing

/-- Only `stop` ends the server. -/
theorem running_of_stepped (stepped : Threads.Stepped env s.server move server)
    (goesOn : stopping (s.server.advanced move) = false)
    (running : s.server.world.server.status = .running) : server.world.server.status = .running := by
  cases stepped with
  | perform found =>
    rw [Threads.advanced_of_worker found] at goesOn
    exact (exec_status env _ goesOn _).trans running
  | performTask found =>
    rw [Threads.advanced_of_task found] at goesOn
    exact (exec_status env _ goesOn _).trans running
  | _ => exact running

theorem Phase.registered_server (tracked : s.server.Tracked) (accepted : s.conn = some conn)
    {socket : Fd} {client : Client}
    (present : s.server.workers[conn]? =
      some ⟨socket, .running false (confirmLogin username socket)⟩)
    (alone : s.server.Private socket conn)
    (logged : .register username (some conn) ∈ s.server.world.os.log)
    (running : s.server.world.server.status = .running)
    (awaits : s.client = Client.await username client)
    (stepped : Threads.Stepped env s.server move server)
    (undisturbed : Undisturbed s (env, .server move)) :
    Phase username { s with server, outgoing := s.outgoingAfter move } := by
  by_cases moves : move.loop = some conn
  case neg =>
    have other : move ≠ .advance conn := fun same => moves (same ▸ rfl)
    obtain ⟨clears, goesOn⟩ := undisturbed conn accepted _ present rfl other
    obtain ⟨alone, kept, ignored⟩ := alone.step tracked present rfl stepped moves clears
    exact .registered accepted kept alone ((ignored.registers username).mpr logged)
      (running_of_stepped stepped goesOn running) awaits
  cases stepped with
  | accept | start | performTask | finishTask => cases moves
  | receive found | receiveFailure found | finish found =>
    obtain rfl := Option.some.inj moves
    cases found.symm.trans present
  | @perform i number last β action next found =>
    obtain rfl := Option.some.inj moves
    cases found.symm.trans present
    have head : ((s.server.world.send env socket (connectedAs username)).2.framesTo i).head? =
        some (connectedAs username) := by
      rw [framesTo_send alone.nonneg alone.user, alone.silent]
      rfl
    obtain ⟨events, grown, _⟩ := s.server.world.log_sent env socket (connectedAs username)
    refine .confirmed accepted head ?_ (.inl ⟨client, awaits⟩)
    exact grown.symm ▸ List.mem_append_left events logged

/-- What has arrived first stays first. -/
theorem head_of_stepped (stepped : Threads.Stepped env s.server move server) {frame : Str}
    (head : (s.server.world.framesTo conn).head? = some frame) :
    (server.world.framesTo conn).head? = some frame := by
  obtain ⟨events, grown, _⟩ := Threads.step_log stepped
  rw [World.framesTo_append grown, List.head?_append, head]
  rfl

theorem Phase.confirmed_server (accepted : s.conn = some conn)
    (head : (s.server.world.framesTo conn).head? = some (connectedAs username))
    (logged : .register username (some conn) ∈ s.server.world.os.log)
    (ends : (∃ client, s.client = Client.await username client) ∨
      ∃ client, s.client = .done (.ok client))
    (stepped : Threads.Stepped env s.server move server) :
    Phase username { s with server, outgoing := s.outgoingAfter move } := by
  obtain ⟨events, grown, _⟩ := Threads.step_log stepped
  exact .confirmed accepted (head_of_stepped stepped head)
    (grown.symm ▸ List.mem_append_left events logged) ends

/-- While no loop on the connection's number registers a name, none is registered for it. -/
theorem register_of_stepped (tracked : s.server.Tracked) (formed : s.server.Formed)
    (stepped : Threads.Stepped env s.server move server)
    (settled : ∀ {i : ConnId} {worker : Worker}, s.server.workers[i]? = some worker →
      s.server.world.os.holder worker.socket = some conn → worker.rest.Only Action.Unconfirming)
    (member : .register username (some conn) ∈ server.world.os.log) :
    .register username (some conn) ∈ s.server.world.os.log := by
  have quiet : ∀ {name : Str} {number : Fd} {next : Unit → Handler},
      s.server.advanced move = .act (.registerClient name number) next →
      s.server.world.os.holder number ≠ some conn := by
    intro name number next advances holds
    rcases Threads.performer advances with ⟨i, worker, rfl, found, busy⟩ | ⟨k, rfl, found⟩
    · have own := tracked.own found
      rw [busy] at own
      have same : number = worker.socket := own.1
      have unconfirming := settled found (same ▸ holds)
      rw [busy] at unconfirming
      exact unconfirming.1
    · exact (formed.tasks (List.mem_of_getElem? found)).1
  obtain ⟨events, grown, logged⟩ := Threads.step_log stepped
  rcases List.mem_append.mp (grown ▸ member) with old | new
  · exact old
  · obtain ⟨β, action, next, advances, logs⟩ := logged _ new
    cases action with
    | registerClient name number =>
      exact absurd (Event.register.inj logs).2.symm (quiet advances)
    | unregisterClient | close => cases logs
    | send =>
      obtain ⟨taken, same⟩ := logs
      cases same
    | pingClients =>
      obtain ⟨entry, _, taken, same⟩ := logs
      cases same
    | stop =>
      obtain ⟨entry, _, same⟩ := logs
      cases same
    | _ => exact logs.elim

theorem Phase.refused_server (tracked : s.server.Tracked) (formed : s.server.Formed)
    (accepted : s.conn = some conn) {frame : Str}
    (head : (s.server.world.framesTo conn).head? = some frame) (refusal : frame ∈ refusals)
    (absent : .register username (some conn) ∉ s.server.world.os.log) (empty : s.outgoing = [])
    (settled : ∀ {i : ConnId} {worker : Worker}, s.server.workers[i]? = some worker →
      s.server.world.os.holder worker.socket = some conn → worker.rest.Only Action.Unconfirming)
    (ends : (∃ client, s.client = Client.await username client) ∨ Client.Failing s.client)
    (admits : s.Admits move) (stepped : Threads.Stepped env s.server move server) :
    Phase username { s with server, outgoing := s.outgoingAfter move } := by
  refine .refused accepted (head_of_stepped stepped head) refusal
    (mt (register_of_stepped tracked formed stepped settled) absent)
    (outgoingAfter_of_empty empty move) (fun {j worker} stands holds => ?_) ends
  cases stepped with
  | @accept fresh =>
    rcases Threads.workers_append stands with old | ⟨_, rfl⟩
    · simp only [World.accept, Function.update_apply] at holds
      split_ifs at holds
      · cases holds
        rw [(tracked.future (Nat.le_refl _)).1] at head
        cases head
      · exact settled old holds
    · trivial
  | @receive i raw socket user found used =>
    rcases Threads.workers_cases found stands with ⟨_, rfl⟩ | ⟨_, other⟩
    · -- what the loop reads here would have to be a second frame of the client
      cases (tracked.held used).symm.trans holds
      have first : s.outgoing.head? = some raw := admits ⟨_, accepted, _, found, used⟩
      rw [empty] at first
      cases first
    · exact settled other holds
  | receiveFailure found =>
    rcases Threads.workers_cases found stands with ⟨_, rfl⟩ | ⟨_, other⟩
    · exact handleReceiveFailure_unconfirming _
    · exact settled other holds
  | perform found =>
    have holds := (congrFun (exec_holder env _ s.server.world) _).symm.trans holds
    rcases Threads.workers_cases found stands with ⟨_, rfl⟩ | ⟨_, other⟩
    · exact (settled found holds).2 _
    · exact settled other holds
  | @finish i socket last found =>
    rcases Threads.workers_cases found stands with ⟨_, rfl⟩ | ⟨_, other⟩
    · cases last <;> trivial
    · exact settled other holds
  | performTask =>
    exact settled stands ((congrFun (exec_holder env _ s.server.world) _).symm.trans holds)
  | start | finishTask => exact settled stands holds

theorem Phase.serverMove (text : NameText username) (tracked : s.server.Tracked)
    (formed : s.server.Formed) (phase : Phase username s) (admits : s.Admits move)
    (moved : s.server.step (env, move) = some server)
    (undisturbed : Undisturbed s (env, .server move)) :
    Phase username { s with server, outgoing := s.outgoingAfter move } := by
  obtain ⟨running, stepped⟩ := Threads.step_cases moved
  cases phase with
  | unaccepted absent pending =>
    have unread : s.outgoingAfter move = s.outgoing := by
      cases move with
      | receive i raw =>
        apply if_neg
        rintro ⟨conn, accepted, _⟩
        cases absent.symm.trans accepted
      | _ => rfl
    exact .unaccepted absent (pending.keep running rfl unread)
  | unread accepted present hidden quiet pending =>
    exact unread_server text tracked accepted present hidden quiet pending admits running stepped
  | checking accepted present hidden checks empty waiting =>
    exact checking_server tracked accepted present hidden checks empty waiting running stepped
  | registered accepted present alone logged running awaits =>
    exact registered_server tracked accepted present alone logged running awaits stepped undisturbed
  | confirmed accepted head logged ends =>
    exact confirmed_server accepted head logged ends stepped
  | refused accepted head refusal absent empty settled ends =>
    exact refused_server tracked formed accepted head refusal absent empty settled ends admits stepped

end ServerMoves

theorem step_phase (text : NameText username) (short : username.length ≤ 100)
    {label : Env × Move} (tracked : s.server.Tracked) (formed : s.server.Formed)
    (phase : Phase username s) (undisturbed : Undisturbed s label)
    (stepped : step s label = some after) :
    after.server.Tracked ∧ after.server.Formed ∧ Phase username after := by
  obtain ⟨env, move⟩ := label
  cases step_cases stepped with
  | client program answered =>
    have same := (answer_keeps answered).1
    exact ⟨same.symm ▸ tracked, same.symm ▸ formed, phase.clientMove text short program answered⟩
  | accept absent accepted =>
    exact ⟨Threads.step_tracked tracked accepted, Threads.step_formed formed accepted,
      phase.accept tracked absent accepted undisturbed⟩
  | server admits moved =>
    exact ⟨Threads.step_tracked tracked moved, Threads.step_formed formed moved,
      phase.serverMove text tracked formed admits moved undisturbed⟩

/-- However the threads take turns, the two ends agree on the login, as long as
the accepted number is free of its past and nobody comes between the
registration and its confirmation. -/
theorem ends_agree {config : RuntimeConfig} (formed : config.WellFormed)
    (valid : isValidUsername config username = true) {client : Client} {banlist : Option Str}
    {labels : List (Env × Move)}
    (run : Run step Undisturbed (start username client banlist) labels s) : Agreed username s := by
  obtain ⟨text, bound⟩ := isValidUsername_iff.mp valid
  have short : username.length ≤ 100 := Nat.le_trans bound (usernameLimit_le formed)
  have all := run.invariant
    (P := fun s => s.server.Tracked ∧ s.server.Formed ∧ Phase username s)
    (fun ⟨tracked, formed, phase⟩ undisturbed stepped =>
      step_phase text short tracked formed phase undisturbed stepped)
    ⟨Threads.initial_tracked banlist, Threads.initial_formed banlist,
      .unaccepted rfl (.early (Client.connect_early username client) rfl)⟩
  exact all.2.2.agreed

/-- Whether `connect` has returned, and what. -/
def returned : Client.Attempt → Option Bool
  | .done (.ok _) => some true
  | .done (.error _) => some false
  | _ => none

theorem agreed_returned (agreed : Agreed username s) {success : Bool}
    (ended : returned s.client = some success) : success = true ↔ Registered username s := by
  cases program : s.client with
  | act => simp [program, returned] at ended
  | done result =>
    rw [← agreed.outcome program]
    rw [program] at ended
    cases result with
    | error => cases ended; simp
    | ok client => cases ended; simp

/-- Every call succeeds. -/
def connected : Client.Answers := ⟨3, true, true, true⟩

/-- ann's client has sent its CONNECT and waits, and the server has registered the name. -/
def annRegisters : List (Env × Move) :=
  (List.replicate 4 (Move.client connected) ++
    [Move.accept 5, Move.server (.receive 0 (str "CONNECT;ann\n"))] ++
    List.replicate 4 (Move.server (.advance 0))).map fun move => (.plain, move)

/-- This can be computed, and it is enough: only the client's own loop moves. -/
def ownMoves (s : Handshake) (label : Env × Move) : Bool :=
  match label.2 with
  | .client _ => true
  | .accept _ => s.server.workers.isEmpty && s.server.tasks.isEmpty &&
      s.server.world.server.clients.entries.isEmpty
  | .server (.receive _ _) => true
  | .server (.advance i) => s.conn = some i
  | .server _ => false

theorem undisturbed_of_ownMoves (s : Handshake) (label : Env × Move)
    (own : ownMoves s label = true) : Undisturbed s label := by
  obtain ⟨env, move⟩ := label
  cases move with
  | client answers => trivial
  | accept socket =>
    simp only [ownMoves, Bool.and_eq_true, List.isEmpty_iff] at own
    obtain ⟨⟨workers, tasks⟩, entries⟩ := own
    simp [Undisturbed, World.Unnamed, workers, tasks, entries]
  | server move =>
    cases move with
    | receive i raw => exact fun _ _ _ _ _ _ => ⟨trivial, rfl⟩
    | advance i =>
      intro conn accepted _ _ _ other
      have same : s.conn = some i := by simpa [ownMoves] using own
      cases accepted.symm.trans same
      exact absurd rfl other
    | accept | receiveFailure | start | advanceTask => cases own

/-- The confirmation is the first frame that ann's client receives. -/
theorem ends_agree_of_ann : ∃ (labels : List (Env × Move)) (s : Handshake),
    Run step Undisturbed (start (str "ann") ⟨str "127.0.0.1", false, []⟩ none) labels s ∧
    returned s.client = some true ∧ Agreed (str "ann") s := by
  obtain ⟨s, ran, success⟩ := evaluated
    (o := execute (guarded ownMoves step) (start (str "ann") ⟨str "127.0.0.1", false, []⟩ none)
      (annRegisters ++ [(.plain, .server (.advance 0)), (.plain, .client connected)]))
    (P := fun s => returned s.client = some true) (by decide)
  have run := run_of_guarded undisturbed_of_ownMoves _ ran
  exact ⟨_, s, run, success,
    ends_agree RuntimeConfig.initial_wellFormed (by decide) run⟩

/-- The heartbeat's PING comes first, and ann's client gives up although the
server has registered it. -/
theorem ends_not_always_agree : ¬ ∀ (config : RuntimeConfig) (username : Str) (client : Client)
    (banlist : Option Str) (labels : List (Env × Move)) (s : Handshake), config.WellFormed →
    isValidUsername config username = true → Run step Free (start username client banlist) labels s →
    Agreed username s := by
  intro claimed
  obtain ⟨s, ran, failure, registered⟩ := evaluated
    (o := execute step (start (str "ann") ⟨str "127.0.0.1", false, []⟩ none)
      (annRegisters ++ [(.plain, .server (.start .heartbeat)), (.plain, .server (.advanceTask 0)),
        (.plain, .client connected), (.plain, .client connected)]))
    (P := fun s => returned s.client = some false ∧
      ∃ conn ∈ s.conn, .register (str "ann") (some conn) ∈ s.server.world.os.log)
    (by decide)
  have agreed := claimed .initial (str "ann") _ none _ s RuntimeConfig.initial_wellFormed
    (by decide) (execute_run _ ran)
  exact absurd ((agreed_returned agreed failure).mpr registered) (by decide)

end Handshake
end SocketMessaging
