import SocketMessaging.Server.History

/-! What one round of the dispatcher does with the message at the front of the
queue: who gets the MESSAGE frame, who is told that it could not be delivered,
and which outcomes of a write pass unnoticed. -/
namespace SocketMessaging
open Prog Utils MessageParser Dispatcher CommandHandler

namespace Dispatcher

/-- The two frames of a round are never confused. -/
theorem undeliverable_ne_formattedMessage (message : Message) :
    undeliverable message ≠ formattedMessage message := by
  intro same
  have first := congrArg List.head? same
  exact absurd first (show some (69 : UInt8) ≠ some 77 by decide)

/-- All that is written when a message is delivered. -/
def writes (env : Env) (w : World) (message : Message) : List Event :=
  let recipientSocket := w.server.getUserSocket message.recipient
  let senderSocket := w.server.getUserSocket message.sender
  let write := fun socket frame => Event.send socket (w.os.user socket) frame
    (w.transferred env socket frame)
  if 0 < recipientSocket then [write recipientSocket (formattedMessage message)]
  else if 0 < senderSocket then [write senderSocket (undeliverable message)] else []

theorem deliver_log (env : Env) (message : Message) (w : World) :
    ((deliver message).run (exec env) w).2.os.log = w.os.log ++ writes env w message := by
  rw [deliver_run, writes]
  dsimp only
  by_cases present : 0 < w.server.getUserSocket message.recipient
  · rw [if_neg (Int.not_le.mpr present), if_pos present]
    have logged := World.log_reply (Int.le_of_lt present) env (formattedMessage message) w
    split_ifs <;> exact logged
  · rw [if_pos (Int.not_lt.mp present), if_neg present]
    by_cases reachable : 0 < w.server.getUserSocket message.sender
    · rw [if_pos reachable, if_pos reachable]
      exact World.log_reply (Int.le_of_lt reachable) env _ w
    · rw [if_neg reachable, if_neg reachable, List.append_nil]

end Dispatcher

namespace World
variable {w v : World}

/-- The whole of this message has been handed over on the socket. -/
def Written (before after : World) (socket : Fd) (message : Str) : Prop :=
  ∃ conn, .send socket conn message (some (NetworkStream.encodeMessage message).length) ∈
    before.since after

/-- `::send` takes the whole frame. -/
def Takes (env : Env) (w : World) (socket : Fd) (message : Str) : Prop :=
  w.transferred env socket message = some (NetworkStream.encodeMessage message).length

/-- After a single write, what has been written is that frame if it was taken whole. -/
theorem written_iff {env : Env} {socket : Fd} (connected : 0 < socket) {message : Str}
    (logged : v.os.log = (w.reply env socket message).os.log) (number : Fd) (other : Str) :
    w.Written v number other ↔ number = socket ∧ other = message ∧ w.Takes env socket message := by
  rw [w.log_reply (Int.le_of_lt connected)] at logged
  unfold Written Takes
  rw [since_eq logged]
  constructor
  · rintro ⟨conn, member⟩
    have event := List.mem_singleton.mp member
    simp only [Event.send.injEq] at event
    obtain ⟨rfl, _, rfl, taken⟩ := event
    exact ⟨rfl, rfl, taken.symm⟩
  · rintro ⟨rfl, rfl, taken⟩
    rw [taken]
    exact ⟨_, List.mem_singleton_self _⟩

theorem not_written_of_silent (logged : v.os.log = w.os.log) (number : Fd) (other : Str) :
    ¬ w.Written v number other := by
  rintro ⟨conn, member⟩
  rw [since_eq (logged.trans (List.append_nil _).symm)] at member
  exact absurd member List.not_mem_nil

/-- The MESSAGE frame reached the recipient in full. -/
def MessageWritten (before after : World) (message : Message) : Prop :=
  ∃ info, before.server.clients.lookup message.recipient = some info ∧
    before.Written after info.socket (formattedMessage message)

/-- The notice that the message could not be delivered reached the sender in full. -/
def NoticeWritten (before after : World) (message : Message) : Prop :=
  ∃ info, before.server.clients.lookup message.sender = some info ∧
    before.Written after info.socket (undeliverable message)

def Sent (before after : World) (message : Message) : Prop :=
  before.MessageWritten after message ∧
    after.server.totalMessagesSent = before.server.totalMessagesSent + 1

def SenderTold (before after : World) (message : Message) : Prop :=
  ¬ before.MessageWritten after message ∧
    (before.server.isUsernameTaken message.sender = true → before.NoticeWritten after message)

/-- Exactly one of both: the message was sent and counted, or its sender was told. -/
def Accounted (before after : World) (message : Message) : Prop :=
  before.Sent after message ∧ ¬ before.SenderTold after message ∨
  before.SenderTold after message ∧ ¬ before.Sent after message

theorem accounted_iff {before after : World} {message : Message} :
    before.Accounted after message ↔ before.Sent after message ∨ before.SenderTold after message := by
  unfold Accounted Sent SenderTold
  tauto

theorem lookup_of_getUserSocket {w : World} {username : Str}
    (positive : 0 < w.server.getUserSocket username) :
    ∃ info, w.server.clients.lookup username = some info ∧
      info.socket = w.server.getUserSocket username :=
  handleOf_eq_some.mp (handleOf_of_getUserSocket positive)

theorem isUsernameTaken_of_lookup {w : World} {username : Str} {info : ClientInfo}
    (present : w.server.clients.lookup username = some info) :
    w.server.isUsernameTaken username = true := by
  simp only [Server.isUsernameTaken, present, Option.isSome_some]

theorem log_reply_setQueue {socket : Fd} (connected : 0 < socket) (env : Env) (message : Str)
    (rest : List Message) (w : World) :
    ((w.setQueue rest).reply env socket message).os.log = (w.reply env socket message).os.log := by
  rw [log_reply (Int.le_of_lt connected), log_reply (Int.le_of_lt connected)]
  rfl

/-- Where nothing is written, only an absent sender excuses it. -/
theorem accounted_of_silent {message : Message} (logged : v.os.log = w.os.log) :
    w.Accounted v message ↔ w.server.isUsernameTaken message.sender = false := by
  have unwritten := not_written_of_silent logged
  have noMessage : ¬ w.MessageWritten v message := fun ⟨_, _, written⟩ => unwritten _ _ written
  have noNotice : ¬ w.NoticeWritten v message := fun ⟨_, _, written⟩ => unwritten _ _ written
  rw [accounted_iff, Sent, SenderTold]
  simp only [noMessage, noNotice, false_and, not_false_eq_true, true_and, imp_false, false_or,
    Bool.not_eq_true]

/-- A notice counts when it is taken whole. -/
theorem accounted_of_notice {env : Env} {message : Message}
    (reachable : 0 < w.server.getUserSocket message.sender)
    (logged : v.os.log =
      (w.reply env (w.server.getUserSocket message.sender) (undeliverable message)).os.log) :
    w.Accounted v message ↔
      w.Takes env (w.server.getUserSocket message.sender) (undeliverable message) := by
  obtain ⟨info, present, socket⟩ := lookup_of_getUserSocket reachable
  have taken := isUsernameTaken_of_lookup present
  have written := written_iff reachable logged
  have noMessage : ¬ w.MessageWritten v message := by
    rintro ⟨_, _, frame⟩
    exact undeliverable_ne_formattedMessage message ((written _ _).mp frame).2.1.symm
  have notice : w.NoticeWritten v message ↔
      w.Takes env (w.server.getUserSocket message.sender) (undeliverable message) := by
    constructor
    · rintro ⟨_, _, frame⟩
      exact ((written _ _).mp frame).2.2
    · exact fun whole => ⟨info, present, (written _ _).mpr ⟨socket, rfl, whole⟩⟩
  rw [accounted_iff, Sent, SenderTold]
  simp only [noMessage, notice, taken, false_and, not_false_eq_true, true_and, forall_const,
    false_or]

/-- A MESSAGE frame that is not taken whole goes unnoticed. -/
theorem accounted_of_message {env : Env} {message : Message}
    (reachable : 0 < w.server.getUserSocket message.recipient)
    (logged : v.os.log =
      (w.reply env (w.server.getUserSocket message.recipient) (formattedMessage message)).os.log)
    (counted : w.Takes env (w.server.getUserSocket message.recipient) (formattedMessage message) →
      v.server.totalMessagesSent = w.server.totalMessagesSent + 1) :
    w.Accounted v message ↔
      w.Takes env (w.server.getUserSocket message.recipient) (formattedMessage message) ∨
      w.server.isUsernameTaken message.sender = false := by
  obtain ⟨info, present, socket⟩ := lookup_of_getUserSocket reachable
  have written := written_iff reachable logged
  have frame : w.MessageWritten v message ↔
      w.Takes env (w.server.getUserSocket message.recipient) (formattedMessage message) := by
    constructor
    · rintro ⟨_, _, frame⟩
      exact ((written _ _).mp frame).2.2
    · exact fun whole => ⟨info, present, (written _ _).mpr ⟨socket, rfl, whole⟩⟩
  have noNotice : ¬ w.NoticeWritten v message := by
    rintro ⟨_, _, notice⟩
    exact undeliverable_ne_formattedMessage message ((written _ _).mp notice).2.1
  rw [accounted_iff, Sent, SenderTold, frame]
  simp only [noNotice, imp_false, Bool.not_eq_true]
  tauto

end World

namespace System

theorem dispatch_world {s after : System} {env : Env} {message : Message} {rest : List Message}
    (front : s.world.queue = message :: rest) (stepped : step s (env, .dispatch) = some after) :
    after.world = ((deliver message).run (exec env) (s.world.setQueue rest)).2 := by
  obtain ⟨_, stepped⟩ := step_cases stepped
  cases stepped with
  | dispatch => exact runOnce_run front

/-- A dequeued message is accounted for exactly when the frame meant for the
recipient, or failing that the notice to the sender, is taken whole; or when
there is no sender left to tell. -/
theorem delivery_accounted_iff {s after : System} {env : Env} {message : Message}
    {rest : List Message} (front : s.world.queue = message :: rest)
    (stepped : step s (env, .dispatch) = some after) :
    s.world.Accounted after.world message ↔
      if 0 < s.world.server.getUserSocket message.recipient then
        s.world.Takes env (s.world.server.getUserSocket message.recipient)
          (formattedMessage message) ∨ s.world.server.isUsernameTaken message.sender = false
      else s.world.server.isUsernameTaken message.sender = false ∨
        0 < s.world.server.getUserSocket message.sender ∧
          s.world.Takes env (s.world.server.getUserSocket message.sender)
            (undeliverable message) := by
  rw [dispatch_world front stepped, deliver_run]
  have same : ∀ name, (s.world.setQueue rest).server.getUserSocket name =
      s.world.server.getUserSocket name := fun _ => rfl
  simp only [same]
  by_cases present : 0 < s.world.server.getUserSocket message.recipient
  · have logged := World.log_reply_setQueue present env (formattedMessage message) rest s.world
    rw [if_neg (Int.not_le.mpr present), if_pos present]
    split_ifs with sent
    · refine World.accounted_of_message present logged fun _ => ?_
      simp only [World.countSent, World.mapServer, World.server_reply]
      rfl
    · refine World.accounted_of_message present logged fun whole => ?_
      have taken : s.world.transferred env _ (formattedMessage message) = some _ := whole
      exact absurd (congrArg Option.isSome taken) sent
  · have absent := Int.not_lt.mp present
    rw [if_pos absent, if_neg present]
    by_cases reachable : 0 < s.world.server.getUserSocket message.sender
    · have logged := World.log_reply_setQueue reachable env (undeliverable message) rest s.world
      obtain ⟨info, registered, _⟩ := World.lookup_of_getUserSocket reachable
      rw [if_pos reachable, World.accounted_of_notice reachable logged,
        World.isUsernameTaken_of_lookup registered]
      simp only [reachable, Bool.true_eq_false, true_and, false_or]
    · have logged : (s.world.setQueue rest).os.log = s.world.os.log := rfl
      rw [if_neg reachable, World.accounted_of_silent logged]
      simp only [reachable, false_and, or_false]

/-- Two users, and a message from one to the other that is still queued. -/
def queuedMessage : List Operation :=
  [.accept 5, .receive 0 (str "CONNECT;ann"), .accept 6, .receive 1 (str "CONNECT;bob"),
   .receive 0 (str "SEND;bob;hello;world")]

theorem delivery_accounted_of_whole_frame : ∃ s after message, Reachable s ∧
    step s (.plain, .dispatch) = some after ∧ s.world.queue = [message] ∧
    s.world.Accounted after.world message := by
  let message : Message := ⟨str "ann", str "bob", str "hello", str "world", 0⟩
  obtain ⟨s, before, front, present, whole, checked⟩ := Transition.evaluated
    (o := plainRun queuedMessage)
    (P := fun s => s.world.queue = [message] ∧
      s.world.server.getUserSocket message.recipient = 6 ∧
      s.world.transferred .plain 6 (formattedMessage message) =
        some (NetworkStream.encodeMessage (formattedMessage message)).length ∧
      (step s (.plain, .dispatch)).isSome = true) (by decide)
  obtain ⟨after, stepped⟩ := Option.isSome_iff_exists.mp checked
  refine ⟨s, after, _, reachable_of_plainRun before, stepped, front, ?_⟩
  apply (delivery_accounted_iff front stepped).mpr
  rw [present, if_pos (by decide)]
  exact .inl whole

/-- The recipient is registered but the write to it fails: nobody is told. -/
theorem not_always_accounted : ¬ ∀ (s after : System) (env : Env) (message : Message)
    (rest : List Message), Reachable s → s.world.queue = message :: rest →
    step s (env, .dispatch) = some after → s.world.Accounted after.world message := by
  intro claimed
  let failing : Env := { Env.plain with transfer := fun _ _ => none }
  let message : Message := ⟨str "ann", str "bob", str "hello", str "world", 0⟩
  obtain ⟨s, before, front, registered, checked⟩ := Transition.evaluated
    (o := plainRun queuedMessage)
    (P := fun s => s.world.queue = [message] ∧
      s.world.server.isUsernameTaken message.sender = true ∧
      ((step s (failing, .dispatch)).any fun after =>
        s.world.since after.world = [.send 6 (some 1) (formattedMessage message) none]) = true)
    (by decide)
  obtain ⟨after, stepped, events⟩ := Transition.evaluated checked
  have unwritten : ∀ socket frame, ¬ s.world.Written after.world socket frame := by
    rintro socket frame ⟨conn, member⟩
    rw [events] at member
    exact absurd (List.mem_singleton.mp member) (by simp)
  have accounted := claimed s after failing _ _ (reachable_of_plainRun before) front stepped
  rcases World.accounted_iff.mp accounted with ⟨⟨_, _, written⟩, _⟩ | ⟨_, told⟩
  · exact unwritten _ _ written
  · obtain ⟨_, _, written⟩ := told registered
    exact unwritten _ _ written

end System
end SocketMessaging
