import SocketMessaging.Server.Invariant

/-! What SEND puts into the queue. A direct message is refused aloud when there
is no room; a broadcast is not, and the recipient field is read as a reserved
word before it is looked up as a name. -/
namespace SocketMessaging
open Prog Utils MessageParser

namespace CommandHandler

/-- The message that a frame asks to send, if it is a SEND with all its fields. -/
def sendRequest (env : Env) (w : World) (raw : Str) (socket : Fd) : Option Message :=
  match parse raw with
  | ⟨command, recipient :: subject :: body :: _, true⟩ =>
    if command = str "SEND" then some (requested env w socket recipient subject body) else none
  | _ => none

/-- The frame is a SEND of a registered sender whose fields pass the checks. -/
structure WellFormedSend (env : Env) (w : World) (raw : Str) (socket : Fd) (message : Message) :
    Prop where
  request : sendRequest env w raw socket = some message
  sender : message.sender ≠ []
  subject : isValidSubject w.runtimeConfig message.subject = true
  body : isValidBody message.body = true

theorem handleMessage_send {env : Env} {w : World} {raw : Str} {socket : Fd} {message : Message}
    (request : sendRequest env w raw socket = some message) :
    ∃ command recipient subject body rest, message = requested env w socket recipient subject body ∧
      handleMessage raw socket =
        handleSendMessage (command :: recipient :: subject :: body :: rest) socket := by
  unfold sendRequest at request
  split at request
  case h_2 => cases request
  case h_1 command recipient subject body rest shape =>
    obtain ⟨sends, same⟩ := Option.ite_none_right_eq_some.mp request
    cases same
    refine ⟨command, recipient, subject, body, rest, rfl, ?_⟩
    simp only [handleMessage, shape, if_true, executeCommand, sends]
    rfl

/-- The queue and the answer that a well-formed SEND leads to. -/
theorem WellFormedSend.run {env : Env} {w : World} {raw : Str} {socket : Fd} {message : Message}
    (reject : w.Rejecting) (request : WellFormedSend env w raw socket message) :
    ((handleMessage raw socket).run (exec env) w).2 =
      let ok := fun text messages =>
        (w.countReceived.setQueue messages).reply env socket (build (str "OK") [text])
      let error := fun text => w.countReceived.reply env socket (build (str "ERROR") [text])
      if message.recipient = str "all" then
        ok (str "Broadcast sent") (BoundedQueue.pushAll w.capacity w.queue
          (addressed message (recipients message.sender (w.server.getAllClients env))))
      else if w.server.getUserSocket message.recipient ≤ 0 then
        error (str "User '" ++ message.recipient ++ str "' does not exist or is offline")
      else if w.queue.length < w.capacity then ok (str "Message sent") (w.queue ++ [message])
      else error (str "Failed to send message: queue full or dispatcher error") := by
  obtain ⟨command, recipient, subject, body, rest, rfl, handled⟩ :=
    handleMessage_send request.request
  rw [handled, handleSendMessage_run env reject]
  simp only [request.sender, request.subject, request.body, Bool.not_true, Bool.false_eq_true,
    if_false]

end CommandHandler

namespace World

/-- The names that a broadcast of this sender should reach. -/
def others (w : World) (sender : Str) : List Str :=
  w.server.clients.keys.filter fun username => username ≠ sender

def freePlaces (w : World) : Nat := w.capacity - w.queue.length

/-- The server writes this message to the socket between the two worlds. -/
def Answered (before after : World) (socket : Fd) (message : Str) : Prop :=
  ∃ conn taken, .send socket conn message taken ∈ before.since after

theorem answered_reply {w before : World} {env : Env} {socket : Fd} (connected : 0 ≤ socket)
    (same : w.os.log = before.os.log) (message other : Str) :
    before.Answered (w.reply env socket message) socket other ↔ other = message := by
  have logged := w.log_reply connected env message
  rw [same] at logged
  unfold Answered
  rw [since_eq logged]
  constructor
  · rintro ⟨conn, taken, member⟩
    cases List.mem_singleton.mp member
    rfl
  · rintro rfl
    exact ⟨_, _, List.mem_singleton_self _⟩

end World

namespace CommandHandler

/-- The copied map holds every registered name once. -/
theorem getAllClients_perm (env : Env) (w : World) :
    ((w.server.getAllClients env).map Prod.fst).Perm w.server.clients.keys := by
  have walked := env.visit_names w.server.clients
  have copied := env.walk_perm ((env.visit w.server.clients).map Prod.fst)
  have names := lookup_names w.server.clients ClientInfo.socket
    fun name member => walked.mem_iff.mp (copied.mem_iff.mp member)
  exact names ▸ copied.trans walked

/-- Every name that a broadcast should reach is walked once. -/
theorem recipients_perm (env : Env) (sender : Str) (w : World) :
    (recipients sender (w.server.getAllClients env)).Perm (w.others sender) :=
  (getAllClients_perm env w).filter _

/-- What such a SEND queues for a registered name is well formed. -/
theorem WellFormedSend.message_sound {env : Env} {w : World} {raw : Str} {socket : Fd}
    {message : Message} (sound : w.Sound) (request : WellFormedSend env w raw socket message)
    {name : Str} (registered : ∃ number, w.table.handleOf name = some number) :
    Message.Sound { message with recipient := name } := by
  obtain ⟨command, recipient, subject, body, rest, rfl, _⟩ := handleMessage_send request.request
  exact requested_sound env sound request.sender request.subject request.body registered

/-- An OK means that the queue got one message for every other registered name,
in some order; anything else is answered with an ERROR. -/
structure BroadcastReported (before after : World) (socket : Fd) (message : Message) : Prop where
  queued : ∀ text, before.Answered after socket (build (str "OK") [text]) →
    ∃ names, names.Perm (before.others message.sender) ∧
      after.queue = before.queue ++ addressed message names
  refused : (∀ text, ¬ before.Answered after socket (build (str "OK") [text])) →
    ∃ text, before.Answered after socket (build (str "ERROR") [text])

/-- A broadcast is always answered OK, and the queue takes as much as fits. -/
theorem WellFormedSend.broadcast {env : Env} {w : World} {raw : Str} {socket : Fd}
    {message : Message} (reject : w.Rejecting) (connected : 0 ≤ socket)
    (request : WellFormedSend env w raw socket message) (everyone : message.recipient = str "all") :
    w.Answered ((handleMessage raw socket).run (exec env) w).2 socket
        (build (str "OK") [str "Broadcast sent"]) ∧
      ((handleMessage raw socket).run (exec env) w).2.queue = w.queue ++
        (addressed message (recipients message.sender (w.server.getAllClients env))).take
          w.freePlaces := by
  rw [request.run reject]
  dsimp only
  rw [if_pos everyone, BoundedQueue.pushAll_eq]
  refine ⟨?_, World.queue_reply ..⟩
  apply (World.answered_reply connected _ _ _).mpr rfl
  rfl

/-- A broadcast is reported truly exactly when there is a free place for every
registered name other than the sender's. -/
theorem broadcast_reported_iff {env : Env} {w : World} {raw : Str} {socket : Fd} {message : Message}
    (reject : w.Rejecting) (connected : 0 ≤ socket)
    (request : WellFormedSend env w raw socket message) (everyone : message.recipient = str "all") :
    BroadcastReported w ((handleMessage raw socket).run (exec env) w).2 socket message ↔
      (w.others message.sender).length ≤ w.freePlaces := by
  have walked := recipients_perm env message.sender w
  obtain ⟨ok, taken⟩ := request.broadcast reject connected everyone
  constructor
  · intro reported
    obtain ⟨names, all, queue⟩ := reported.queued _ ok
    rw [taken, List.append_cancel_left_eq] at queue
    have count := congrArg List.length queue
    simp only [addressed, List.length_take, List.length_map] at count
    rw [all.length_eq, walked.length_eq] at count
    omega
  · intro room
    constructor
    · intro text _
      refine ⟨_, walked, ?_⟩
      rw [taken, List.take_of_length_le]
      rw [addressed, List.length_map, walked.length_eq]
      exact room
    · intro silent
      exact absurd ok (silent _)

/-- Two registered clients, at descriptors 5 and 6. -/
def twoClients : World :=
  (((((System.initial none).world.accept 5 0).registerClient .plain (str "ann") 5).accept 6
    1).registerClient .plain (str "bob") 6)

theorem broadcast_reported_two : BroadcastReported twoClients
    ((handleMessage (str "SEND;all;hello;world") 5).run (exec .plain) twoClients).2 5
    (requested .plain twoClients 5 (str "all") (str "hello") (str "world")) := by
  have reject : twoClients.Rejecting := rfl
  have request : WellFormedSend .plain twoClients (str "SEND;all;hello;world") 5
      (requested .plain twoClients 5 (str "all") (str "hello") (str "world")) :=
    ⟨rfl, by decide, by decide, rfl⟩
  exact (broadcast_reported_iff reject (by decide) request rfl).mpr (by decide)

/-- With a full queue the broadcast reaches nobody and is still answered OK. -/
theorem broadcast_not_always_reported : ∃ (env : Env) (w : World) (raw : Str) (socket : Fd)
    (message : Message), w.Rejecting ∧ 0 ≤ socket ∧ WellFormedSend env w raw socket message ∧
    message.recipient = str "all" ∧
    ¬ BroadcastReported w ((handleMessage raw socket).run (exec env) w).2 socket message := by
  let message := requested .plain twoClients 5 (str "all") (str "hello") (str "world")
  let full := twoClients.setQueue (List.replicate 10000 message)
  have reject : full.Rejecting := rfl
  have request : WellFormedSend .plain full (str "SEND;all;hello;world") 5 message :=
    ⟨rfl, by decide, by decide, rfl⟩
  refine ⟨.plain, full, _, 5, message, reject, by decide, request, rfl, fun reported => ?_⟩
  obtain ⟨ok, taken⟩ := request.broadcast reject (by decide) rfl
  obtain ⟨names, all, queue⟩ := reported.queued _ ok
  have none : full.freePlaces = 0 := by
    have capacity : full.capacity = 10000 := by decide
    rw [World.freePlaces, capacity, World.queue_setQueue, List.length_replicate]
  have bob : full.others message.sender = [str "bob"] := by decide
  rw [taken, none, List.take_zero, List.append_cancel_left_eq] at queue
  have count := all.length_eq
  rw [List.map_eq_nil_iff.mp queue.symm, bob] at count
  exact absurd count (by decide)

end CommandHandler

namespace System
open CommandHandler

/-- A private message to a registered name is queued once, under that name, and
for nobody else: unless the name is the reserved word or its descriptor is 0. -/
theorem addressed_exactly_iff {s after : System} {env : Env} {i : ConnId} {raw : Str} {socket : Fd}
    {message : Message} {info : ClientInfo} (reached : Reachable s)
    (live : s.liveLoop i = some socket) (stepped : step s (env, .receive i raw) = some after)
    (room : s.world.queue.length < s.world.capacity)
    (request : WellFormedSend env s.world raw socket message)
    (registered : s.world.server.clients.lookup message.recipient = some info) :
    (∃ queued, after.world.queue = s.world.queue ++ [queued] ∧
        queued.recipient = message.recipient) ↔
      if message.recipient = str "all" then
        (recipients message.sender (s.world.server.getAllClients env)).take s.world.freePlaces =
          [str "all"]
      else 0 < info.socket := by
  have handled : after.world.queue =
      ((handleMessage raw socket).run (exec env) s.world).2.queue := by
    obtain ⟨_, stepped⟩ := step_cases stepped
    cases stepped with
    | receive reads =>
      obtain rfl := Option.some.inj (live.symm.trans reads)
      rfl
  have reject := reached.sound.world.rejecting
  rw [handled]
  by_cases everyone : message.recipient = str "all"
  · have nonneg := reached.sound.nonneg live
    rw [(request.broadcast reject nonneg everyone).2, if_pos everyone, everyone]
    generalize recipients message.sender (s.world.server.getAllClients env) = names
    simp only [List.append_cancel_left_eq, addressed, ← List.map_take]
    constructor
    · rintro ⟨queued, one, named⟩
      obtain ⟨name, only, rfl⟩ := List.map_eq_singleton_iff.mp one
      rw [only, ← named]
    · intro only
      exact ⟨_, by rw [only]; rfl, rfl⟩
  · have found := getUserSocket_of_lookup registered
    rw [request.run reject]
    simp only [everyone, if_false, found, room, if_true]
    by_cases absent : info.socket ≤ 0
    · rw [if_pos absent, World.queue_reply]
      constructor
      · rintro ⟨queued, grown, _⟩
        have longer := congrArg List.length grown
        simp [World.queue, World.countReceived, World.mapServer] at longer
      · intro present
        exact absurd absent (Int.not_le.mpr present)
    · rw [if_neg absent, World.queue_reply]
      exact ⟨fun _ => Int.not_le.mp absent, fun _ => ⟨message, rfl, rfl⟩⟩

theorem addressed_exactly_of_bob : ∃ s after queued, Reachable s ∧
    step s (.plain, .receive 0 (str "SEND;bob;hello;world")) = some after ∧
    after.world.queue = s.world.queue ++ [queued] ∧ queued.recipient = str "bob" := by
  let raw := str "SEND;bob;hello;world"
  let message : Message := ⟨str "ann", str "bob", str "hello", str "world", 0⟩
  obtain ⟨s, before, live, room, registered, asked, subject, checked⟩ := Transition.evaluated
    (o := plainRun [.accept 5, .receive 0 (str "CONNECT;ann"), .accept 6,
      .receive 1 (str "CONNECT;bob")])
    (P := fun s => s.liveLoop 0 = some 5 ∧ s.world.queue.length < s.world.capacity ∧
      s.world.server.clients.lookup (str "bob") = some ⟨6, 0, false⟩ ∧
      sendRequest .plain s.world raw 5 = some message ∧
      isValidSubject s.world.runtimeConfig (str "hello") = true ∧
      (step s (.plain, .receive 0 raw)).isSome = true) (by decide)
  obtain ⟨after, stepped⟩ := Option.isSome_iff_exists.mp checked
  have reached := reachable_of_plainRun before
  have request : WellFormedSend .plain s.world raw 5 message := ⟨asked, by decide, subject, rfl⟩
  have other : str "bob" ≠ str "all" := by decide
  obtain ⟨queued, queue, named⟩ :=
    (addressed_exactly_iff reached live stepped room request registered).mpr
      ((if_neg other).mpr (by decide))
  exact ⟨s, after, queued, reached, stepped, queue, named⟩

/-- A user who registers under the reserved word cannot be written to alone. -/
theorem not_always_addressed_exactly : ¬ ∀ (s after : System) (env : Env) (i : ConnId) (raw : Str)
    (socket : Fd) (message : Message) (info : ClientInfo), Reachable s →
    s.liveLoop i = some socket → step s (env, .receive i raw) = some after →
    s.world.queue.length < s.world.capacity → WellFormedSend env s.world raw socket message →
    s.world.server.clients.lookup message.recipient = some info →
    ∃ queued, after.world.queue = s.world.queue ++ [queued] ∧
      queued.recipient = message.recipient := by
  intro claimed
  let raw := str "SEND;all;hello;secret"
  let message : Message := ⟨str "ann", str "all", str "hello", str "secret", 0⟩
  obtain ⟨s, before, live, room, registered, few, asked, subject, checked⟩ := Transition.evaluated
    (o := plainRun [.accept 5, .receive 0 (str "CONNECT;ann"), .accept 6,
      .receive 1 (str "CONNECT;bob"), .accept 7, .receive 2 (str "CONNECT;all")])
    (P := fun s => s.liveLoop 0 = some 5 ∧ s.world.queue.length < s.world.capacity ∧
      s.world.server.clients.lookup (str "all") = some ⟨7, 0, false⟩ ∧ s.world.queue.length = 0 ∧
      sendRequest .plain s.world raw 5 = some message ∧
      isValidSubject s.world.runtimeConfig (str "hello") = true ∧
      ((step s (.plain, .receive 0 raw)).any fun after => after.world.queue.length = 2) = true)
    (by decide)
  obtain ⟨after, stepped, many⟩ := Transition.evaluated checked
  have request : WellFormedSend .plain s.world raw 5 message := ⟨asked, by decide, subject, rfl⟩
  obtain ⟨queued, queue, _⟩ := claimed s after .plain 0 _ 5 _ ⟨7, 0, false⟩
    (reachable_of_plainRun before) live stepped room request registered
  have one := congrArg List.length queue
  rw [many, List.length_append, few] at one
  exact absurd one (by simp)

end System
end SocketMessaging
