import SocketMessaging.Library.BoundedQueue
import SocketMessaging.Server.HandlerSpecs

/-! The message queue as a bounded queue, and what SEND and one round of the
dispatcher do to a world when they run without interruption. -/
namespace SocketMessaging
open Prog Utils MessageParser

namespace Dispatcher

def capacity (d : Dispatcher) : Nat := sizeOfInt d.config.maxStoredMessages

/-- The policy that `DispatcherConfig` fixes makes the queue refuse what does not fit. -/
theorem queueMessage_reject {d : Dispatcher} (reject : d.config.queuePolicy = .reject)
    (message : Message) : d.queueMessage message =
      ((BoundedQueue.push d.capacity d.messages message).1,
        { d with messages := (BoundedQueue.push d.capacity d.messages message).2 }) := by
  unfold queueMessage BoundedQueue.push capacity
  split
  · rw [reject]
  · rfl

end Dispatcher

namespace World

def setQueue (messages : List Message) (w : World) : World :=
  w.mapServer fun server => { server with dispatcher := { server.dispatcher with messages } }

/-- The queue, its bound and its policy. -/
def queue (w : World) : List Message := w.server.dispatcher.messages

def capacity (w : World) : Nat := w.server.dispatcher.capacity

def Rejecting (w : World) : Prop := w.server.dispatcher.config.queuePolicy = .reject

@[simp] theorem queue_setQueue (messages : List Message) (w : World) :
    (w.setQueue messages).queue = messages := rfl

@[simp] theorem queue_reply (env : Env) (socket : Fd) (message : Str) (w : World) :
    (w.reply env socket message).queue = w.queue := by
  rw [queue, server_reply]
  rfl

theorem queueMessage_eq {w : World} (reject : w.Rejecting) (message : Message) :
    w.queueMessage message = ((BoundedQueue.push w.capacity w.queue message).1,
      w.setQueue (BoundedQueue.push w.capacity w.queue message).2) := by
  unfold queueMessage
  rw [Dispatcher.queueMessage_reject reject]
  rfl

end World

namespace CommandHandler

/-- One copy of the message for each name. -/
def addressed (message : Message) (names : List Str) : List Message :=
  names.map fun username => { message with recipient := username }

/-- The names of a copied map, in its order, that a broadcast is queued for. -/
def recipients (sender : Str) (clients : List (Str × Fd)) : List Str :=
  (clients.map Prod.fst).filter fun username => username ≠ sender

theorem queueBroadcast_run {w : World} (env : Env) (reject : w.Rejecting) (message : Message)
    (clients : List (Str × Fd)) : ((queueBroadcast message clients).run (exec env) w).2 =
      w.setQueue (BoundedQueue.pushAll w.capacity w.queue
        (addressed message (recipients message.sender clients))) := by
  induction clients generalizing w with
  | nil => rfl
  | cons entry clients ih =>
    obtain ⟨username, socket⟩ := entry
    unfold queueBroadcast
    by_cases own : username = message.sender
    · have skipped : recipients message.sender ((username, socket) :: clients) =
          recipients message.sender clients := List.filter_cons_of_neg (by simpa using own)
      rw [skipped, ← ih reject]
      simp only [own, ne_eq, not_true_eq_false, if_false]
    · have taken : recipients message.sender ((username, socket) :: clients) =
          username :: recipients message.sender clients :=
        List.filter_cons_of_pos (by simpa using own)
      have next := ih (w := w.setQueue (BoundedQueue.push w.capacity w.queue
        { message with recipient := username }).2) reject
      rw [taken]
      simp only [own, ne_eq, not_false_eq_true, if_true, perform_bind, run_queueMessage,
        w.queueMessage_eq reject, next]
      rfl

/-- The message that a SEND with these fields builds. -/
def requested (env : Env) (w : World) (socket : Fd) (recipient subject body : Str) :
    Message where
  sender := w.server.getUsernameBySocket env socket
  recipient := sanitize recipient
  subject := sanitize subject
  body := sanitize body
  timestamp := env.systemClock

theorem handleSendMessage_short {parsedData : List Str} (short : parsedData.length < 4) (env : Env)
    (socket : Fd) (w : World) : ((handleSendMessage parsedData socket).run (exec env) w).2 =
      w.reply env socket (build (str "ERROR") [str "Malformed message: missing fields"]) := by
  simp only [handleSendMessage, short, if_true, run_bind, sendError_run, pure_eq, run_done]

theorem handleSendMessage_run {w : World} (env : Env) (reject : w.Rejecting)
    (command recipient subject body : Str) (rest : List Str) (socket : Fd) :
    ((handleSendMessage (command :: recipient :: subject :: body :: rest) socket).run (exec env) w).2 =
      let message := requested env w socket recipient subject body
      let error := fun text => w.countReceived.reply env socket (build (str "ERROR") [text])
      let ok := fun text messages =>
        (w.countReceived.setQueue messages).reply env socket (build (str "OK") [text])
      if message.sender = [] then
        w.reply env socket (build (str "ERROR") [str "Not authenticated"])
      else if !isValidSubject w.runtimeConfig message.subject then
        error (str "Subject too long (max " ++ toDecimal Constants.maxSubjectLength ++ str " chars)")
      else if !isValidBody message.body then error (str "Body is empty")
      else if message.recipient = str "all" then
        ok (str "Broadcast sent") (BoundedQueue.pushAll w.capacity w.queue
          (addressed message (recipients message.sender (w.server.getAllClients env))))
      else if w.server.getUserSocket message.recipient ≤ 0 then
        error (str "User '" ++ message.recipient ++ str "' does not exist or is offline")
      else if w.queue.length < w.capacity then ok (str "Message sent") (w.queue ++ [message])
      else error (str "Failed to send message: queue full or dispatcher error") := by
  have enough : ¬ (command :: recipient :: subject :: body :: rest).length < 4 := by simp
  have same : w.countReceived.Rejecting := reject
  simp only [handleSendMessage, enough, if_false, nth, List.getElem?_cons_succ,
    List.getElem?_cons_zero, done_bind, perform_bind, run_getUsernameBySocket,
    run_incrementMessagesReceived, run_systemClock, run_runtimeConfig, run_getAllClients,
    run_getUserSocket, run_queueMessage, run_ite, run_bind, sendError_run, pure_eq, run_done,
    queueBroadcast_run env same, World.queueMessage_eq same,
    sendOK_run env socket (show str "Broadcast sent" ≠ [] by decide),
    sendOK_run env socket (show str "Message sent" ≠ [] by decide)]
  have room : ∀ message, BoundedQueue.push w.countReceived.capacity w.countReceived.queue message =
      if w.queue.length < w.capacity then (true, w.queue ++ [message]) else (false, w.queue) := by
    intro message
    split_ifs with free
    · exact BoundedQueue.push_room free
    · exact BoundedQueue.push_full (Nat.not_lt.mp free)
  simp only [room, apply_ite Prod.fst, apply_ite Prod.snd]
  by_cases free : w.queue.length < w.capacity
  · simp only [free, if_true]
    rfl
  · simp only [free, if_false, Bool.false_eq_true]
    rfl

end CommandHandler

namespace Dispatcher

theorem deliver_run (env : Env) (message : Message) (w : World) :
    ((deliver message).run (exec env) w).2 =
      let recipientSocket := w.server.getUserSocket message.recipient
      let senderSocket := w.server.getUserSocket message.sender
      if recipientSocket ≤ 0 then
        if 0 < senderSocket then w.reply env senderSocket (undeliverable message) else w
      else if (w.transferred env recipientSocket (formattedMessage message)).isSome then
        (w.reply env recipientSocket (formattedMessage message)).countSent
      else w.reply env recipientSocket (formattedMessage message) := by
  simp only [deliver, perform_bind, run_getUserSocket, run_send, run_ite, run_perform, pure_eq,
    run_done, apply_ite Prod.snd]
  by_cases absent : w.server.getUserSocket message.recipient ≤ 0
  · simp only [absent, if_true]
    rfl
  · have connected : ¬ w.server.getUserSocket message.recipient < 0 :=
      fun negative => absent (Int.le_of_lt negative)
    have sent : (w.send env (w.server.getUserSocket message.recipient) (formattedMessage message)).1 =
        (w.transferred env (w.server.getUserSocket message.recipient)
          (formattedMessage message)).isSome := by
      simp only [World.send, connected, if_false]
    simp only [absent, if_false, sent]
    rfl

theorem runOnce_run {env : Env} {w : World} {message : Message} {rest : List Message}
    (front : w.queue = message :: rest) :
    (runOnce.run (exec env) w).2 = ((deliver message).run (exec env) (w.setQueue rest)).2 := by
  have head : w.server.dispatcher.messages.head? = some message := congrArg List.head? front
  have tail : w.server.dispatcher.messages.tail = rest := congrArg List.tail front
  have popped : w.popMessage.2 = w.setQueue rest := by
    rw [← tail]
    rfl
  simp only [runOnce, perform_bind, run_popMessage, head, popped]

end Dispatcher
end SocketMessaging
