import SocketMessaging.Server.Delivery
import SocketMessaging.Server.Queueing

/-! To whom a queued message is written. Messages are addressed by name, and the
name is looked up again when the message is taken from the queue: the frame goes
to the session that holds the name then, which may be a later one. -/
namespace SocketMessaging
open Prog Utils MessageParser Dispatcher CommandHandler Sessions Transition

namespace World
variable {w : World} {username : Str} {conn : ConnId}

/-- The connection that registered a name and is still open under its stored socket. -/
def HeldBy (w : World) (username : Str) (conn : ConnId) : Prop :=
  ∃ socket, w.table.handleOf username = some socket ∧ w.table.user socket = some conn ∧
    w.table.registrant username = some conn

theorem heldBy_of_exclusive (safe : w.table.Exclusive) {socket : Fd}
    (named : w.table.handleOf username = some socket) :
    ∃ conn, w.HeldBy username conn ∧ w.table.user socket = some conn := by
  obtain ⟨conn, used, registered⟩ := safe.live named
  exact ⟨conn, ⟨socket, named, used, registered⟩, used⟩

/-- Unless a registration is logged, whoever holds a name later held it before. -/
theorem HeldBy.earlier {v : World} {holder owner : ConnId} (kept : Kept username w v)
    (earlier : w.HeldBy username holder) (later : v.HeldBy username owner) :
    owner = holder ∨ ∃ other, .register username other ∈ w.since v := by
  obtain ⟨_, _, _, registered⟩ := earlier
  obtain ⟨_, _, _, registeredLater⟩ := later
  rcases kept.entry with logged | ⟨_, registrant⟩
  · exact .inr logged
  · have same : v.table.registrant username = w.table.registrant username := registrant
    rw [registered, registeredLater] at same
    exact .inl (Option.some.inj same)

end World

namespace CommandHandler

theorem connectName_of_sendRequest {env : Env} {w : World} {raw : Str} {socket : Fd}
    {message : Message} (request : sendRequest env w raw socket = some message) :
    connectName raw = none := by
  unfold sendRequest at request
  split at request
  case h_2 => cases request
  case h_1 command recipient subject body rest shape =>
    obtain ⟨rfl, _⟩ := Option.ite_none_right_eq_some.mp request
    have other : str "SEND" ≠ str "CONNECT" := by decide
    simp only [connectName, shape, true_and, other, if_false]

/-- Whatever SEND puts into the queue is addressed to a registered name. -/
theorem WellFormedSend.registered {env : Env} {w : World} {raw : Str} {socket : Fd}
    {requested message : Message} (reject : w.Rejecting)
    (request : WellFormedSend env w raw socket requested)
    (fresh : message ∈ ((handleMessage raw socket).run (exec env) w).2.queue.drop w.queue.length) :
    ∃ number, w.table.handleOf message.recipient = some number := by
  rw [request.run reject] at fresh
  dsimp only at fresh
  split_ifs at fresh with everyone absent room
  · rw [World.queue_reply, World.queue_setQueue, BoundedQueue.pushAll_eq, List.drop_left] at fresh
    obtain ⟨name, listed, rfl⟩ := List.mem_map.mp (List.mem_of_mem_take fresh)
    exact (mem_recipients listed).2
  · rw [World.queue_reply] at fresh
    exact absurd fresh (by simp [World.queue, World.countReceived, World.mapServer])
  · rw [World.queue_reply, World.queue_setQueue, List.drop_left] at fresh
    rw [List.mem_singleton.mp fresh]
    exact ⟨_, handleOf_of_getUserSocket (Int.not_le.mp absent)⟩
  · rw [World.queue_reply] at fresh
    exact absurd fresh (by simp [World.queue, World.countReceived, World.mapServer])

theorem WellFormedSend.table {env : Env} {w : World} {raw : Str} {socket : Fd} {message : Message}
    (request : WellFormedSend env w raw socket message) :
    ((handleMessage raw socket).run (exec env) w).2.table = w.table := by
  obtain ⟨command, recipient, subject, body, rest, _, handled⟩ := handleMessage_send request.request
  rw [handled]
  exact run_quiet env (handleSendMessage_quiet _ socket) w

end CommandHandler

namespace System

theorem dispatch_events {s after : System} {env : Env} {message : Message} {rest : List Message}
    (front : s.world.queue = message :: rest) (stepped : step s (env, .dispatch) = some after) :
    s.world.since after.world = writes env s.world message := by
  rw [dispatch_world front stepped]
  exact World.since_eq (deliver_log env message (s.world.setQueue rest))

/-- A MESSAGE frame goes to the socket stored for the recipient, if it is positive. -/
theorem message_event {s after : System} {env : Env} {message : Message} {rest : List Message}
    {number : Fd} {conn : Option ConnId} {taken : Option Nat}
    (front : s.world.queue = message :: rest) (stepped : step s (env, .dispatch) = some after)
    (written : .send number conn (formattedMessage message) taken ∈ s.world.since after.world) :
    s.world.table.handleOf message.recipient = some number ∧ conn = s.world.os.user number := by
  rw [dispatch_events front stepped, writes] at written
  dsimp only at written
  split_ifs at written with present reachable
  · have event := List.mem_singleton.mp written
    simp only [Event.send.injEq] at event
    obtain ⟨rfl, rfl, _, _⟩ := event
    exact ⟨handleOf_of_getUserSocket present, rfl⟩
  · have event := List.mem_singleton.mp written
    simp only [Event.send.injEq] at event
    exact absurd event.2.2.1.symm (undeliverable_ne_formattedMessage message)
  · exact absurd written List.not_mem_nil

/-- With nobody registered under the recipient's name the sender is written to. -/
theorem notice_event {s after : System} {env : Env} {message : Message} {rest : List Message}
    {info : ClientInfo} (front : s.world.queue = message :: rest)
    (stepped : step s (env, .dispatch) = some after)
    (absent : s.world.table.handleOf message.recipient = none)
    (present : s.world.server.clients.lookup message.sender = some info)
    (positive : 0 < info.socket) : ∃ conn taken,
      .send info.socket conn (undeliverable message) taken ∈ s.world.since after.world := by
  have nobody : ¬ 0 < s.world.server.getUserSocket message.recipient := by
    rw [getUserSocket_eq, absent]
    decide
  rw [dispatch_events front stepped, writes]
  dsimp only
  rw [if_neg nobody, getUserSocket_of_lookup present, if_pos positive]
  exact ⟨_, _, List.mem_singleton_self _⟩

/-- A message accepted for a name is written to nobody but the connection that
holds the name when it is dequeued, which is the holder at acceptance unless the
name was registered anew; while nobody holds it, the sender is told. -/
theorem written_to_holder {banlist : Option Str} {before between : List (Env × Operation)}
    {s accepted t final : System} {env env' : Env} {i : ConnId} {raw : Str} {socket : Fd}
    {requested message : Message} (run : Run step SingleLogin (initial banlist) before s)
    (live : s.liveLoop i = some socket) (request : WellFormedSend env s.world raw socket requested)
    (stepped : step s (env, .receive i raw) = some accepted)
    (fresh : message ∈ accepted.world.queue.drop s.world.queue.length)
    (later : Run step SingleLogin accepted between t)
    (front : t.world.queue.head? = some message)
    (dispatched : step t (env', .dispatch) = some final) :
    ∃ holder, s.world.HeldBy message.recipient holder ∧
      (∀ number conn taken, .send number conn (formattedMessage message) taken ∈
          t.world.since final.world → ∃ owner, conn = some owner ∧
            t.world.HeldBy message.recipient owner ∧ (owner = holder ∨
              ∃ other, .register message.recipient other ∈ accepted.world.since t.world)) ∧
      (t.world.server.isUsernameTaken message.recipient = false →
        (∀ number conn taken, .send number conn (formattedMessage message) taken ∉
          t.world.since final.world) ∧
        ∀ info, t.world.server.clients.lookup message.sender = some info → 0 < info.socket →
          ∃ conn taken, .send info.socket conn (undeliverable message) taken ∈
            t.world.since final.world) := by
  obtain ⟨rest, queue⟩ := List.head?_eq_some_iff.mp front
  have single : SingleLogin s (env, .receive i raw) := by
    intro _ username _ _ asks
    rw [connectName_of_sendRequest request.request] at asks
    cases asks
  have safe := run_exclusive run
  have safeLater := run_exclusive ((run.snoc single stepped).trans later)
  have handled : accepted.world = ((handleMessage raw socket).run (exec env) s.world).2 := by
    obtain ⟨_, stepped⟩ := step_cases stepped
    cases stepped with
    | receive reads =>
      obtain rfl := Option.some.inj (live.symm.trans reads)
      rfl
  have reject := (Reachable.sound ⟨banlist, before, run.weaken fun _ _ _ => trivial⟩).world.rejecting
  rw [handled] at fresh
  obtain ⟨number, named⟩ := request.registered reject fresh
  obtain ⟨holder, held, _⟩ := World.heldBy_of_exclusive safe named
  have heldAccepted : accepted.world.HeldBy message.recipient holder := by
    rw [World.HeldBy, handled, request.table]
    exact held
  refine ⟨holder, held, fun number conn taken written => ?_, fun absent => ?_⟩
  · obtain ⟨named, rfl⟩ := message_event queue dispatched written
    obtain ⟨owner, heldLater, used⟩ := World.heldBy_of_exclusive safeLater named
    exact ⟨owner, used, heldLater, heldAccepted.earlier (history_kept _ later) heldLater⟩
  · have nobody : t.world.table.handleOf message.recipient = none := by
      rw [isUsernameTaken_eq] at absent
      simpa using absent
    constructor
    · intro number conn taken written
      obtain ⟨named, _⟩ := message_event queue dispatched written
      exact absurd (named.symm.trans nobody) (Option.some_ne_none _)
    · intro info present positive
      exact notice_event queue dispatched nobody present positive

theorem written_to_holder_of_bob : ∃ t final : System, ∃ message owner,
    step t (.plain, .dispatch) = some final ∧ t.world.HeldBy message.recipient owner ∧
    ∃ taken, .send 6 (some owner) (formattedMessage message) taken ∈ t.world.since final.world := by
  let message : Message := ⟨str "ann", str "bob", str "hello", str "world", 0⟩
  let raw := str "SEND;bob;hello;world"
  obtain ⟨s, ran, live, asked, subject, checked⟩ := evaluated
    (o := plainLogins [.accept 5, .receive 0 (str "CONNECT;ann"), .accept 6,
      .receive 1 (str "CONNECT;bob")])
    (P := fun s => s.liveLoop 0 = some 5 ∧ sendRequest .plain s.world raw 5 = some message ∧
      isValidSubject s.world.runtimeConfig (str "hello") = true ∧
      ((step s (.plain, .receive 0 raw)).any fun t =>
        message ∈ t.world.queue.drop s.world.queue.length ∧
        t.world.queue.head? = some message ∧
        ((step t (.plain, .dispatch)).any fun final =>
          .send 6 (some 1) (formattedMessage message)
              (some ((formattedMessage message).length + 4)) ∈
            t.world.since final.world) = true) = true) (by decide)
  obtain ⟨t, stepped, fresh, front, checked⟩ := evaluated checked
  obtain ⟨final, dispatched, event⟩ := evaluated checked
  have request : WellFormedSend .plain s.world raw 5 message := ⟨asked, by decide, subject, rfl⟩
  obtain ⟨holder, _, written, _⟩ := written_to_holder (run_of_plainLogins ran) live request stepped
    fresh (.refl t) front dispatched
  obtain ⟨owner, same, held, _⟩ := written 6 _ _ event
  exact ⟨t, final, message, owner, dispatched, held, _, same ▸ event⟩

/-- A message accepted for one session of a name is written to the next one. -/
theorem written_to_later_session : ∃ (s accepted t final : System) (message : Message)
    (labels : List (Env × Operation)), Reachable s ∧
    WellFormedSend .plain s.world (str "SEND;bob;hello;world") 5 message ∧
    step s (.plain, .receive 0 (str "SEND;bob;hello;world")) = some accepted ∧
    accepted.world.queue = s.world.queue ++ [message] ∧ s.world.HeldBy message.recipient 1 ∧
    Run step Free accepted labels t ∧ t.world.queue = [message] ∧
    step t (.plain, .dispatch) = some final ∧
    ∃ taken, .send 7 (some 2) (formattedMessage message) taken ∈ t.world.since final.world := by
  let message : Message := ⟨str "ann", str "bob", str "hello", str "world", 0⟩
  let between : List (Env × Operation) :=
    [.receiveFailure 1, .accept 7, .receive 2 (str "CONNECT;bob")].map fun operation =>
      (.plain, operation)
  let raw := str "SEND;bob;hello;world"
  obtain ⟨s, before, asked, subject, named, used, registered, checked⟩ := evaluated
    (o := plainRun [.accept 5, .receive 0 (str "CONNECT;ann"), .accept 6,
      .receive 1 (str "CONNECT;bob")])
    (P := fun s => sendRequest .plain s.world raw 5 = some message ∧
      isValidSubject s.world.runtimeConfig (str "hello") = true ∧
      s.world.table.handleOf message.recipient = some 6 ∧ s.world.table.user 6 = some 1 ∧
      s.world.table.registrant message.recipient = some 1 ∧
      ((step s (.plain, .receive 0 raw)).any fun accepted =>
        accepted.world.queue = s.world.queue ++ [message] ∧
        ((Transition.execute step accepted between).any fun t =>
          t.world.queue = [message] ∧
          ((step t (.plain, .dispatch)).any fun final =>
            .send 7 (some 2) (formattedMessage message)
                (some ((formattedMessage message).length + 4)) ∈
              t.world.since final.world) = true) = true) = true) (by decide)
  obtain ⟨accepted, stepped, queue, checked⟩ := evaluated checked
  obtain ⟨t, later, front, checked⟩ := evaluated checked
  obtain ⟨final, dispatched, event⟩ := evaluated checked
  have request : WellFormedSend .plain s.world raw 5 message := ⟨asked, by decide, subject, rfl⟩
  exact ⟨s, accepted, t, final, message, between, reachable_of_plainRun before, request, stepped,
    queue, ⟨6, named, used, registered⟩, execute_run _ later, front, dispatched, _, event⟩

end System
end SocketMessaging
