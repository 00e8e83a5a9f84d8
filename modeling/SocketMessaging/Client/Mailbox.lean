import SocketMessaging.Client.Client
import SocketMessaging.Client.Inbox
import SocketMessaging.Server.MailRuns

/-! What a client stores of what the server has for it. The bytes that the kernel
took for a connection come out in order, so as long as frames are taken whole the
client stores the items of its box in the exchange, from the first one on. -/
namespace SocketMessaging
open Prog Transition MessageParser NetworkStream

/-- The frame on which a login succeeds is no message. -/
theorem messageTexts_of_login {username response : Str} {client session : Client}
    (accepted : client.conclude username (some response) = .done (.ok session)) :
    messageTexts response = none := by
  have answers : (parse response).command = str "OK" := by
    by_contra other
    simp [Client.conclude, Client.giveUp, other] at accepted
  have other : str "OK" ≠ str "MESSAGE" := by decide
  simp only [messageTexts, answers, other, false_and, and_false, if_false]

/-- A frame and how many of its bytes were taken for this connection. -/
def Event.transferTo (conn : ConnId) : Event → Option (Str × Nat)
  | .send _ user frame (some count) => if user = some conn then some (frame, count) else none
  | _ => none

namespace World

def transfers (conn : ConnId) (w : World) : List (Str × Nat) :=
  w.os.log.filterMap (Event.transferTo conn)

/-- All bytes taken for a connection. -/
def streamTo (conn : ConnId) (w : World) : Str :=
  (w.transfers conn).flatMap fun transfer => (encodeMessage transfer.1).take transfer.2

/-- Every frame can be read, and only the last one may have been cut off. -/
structure Unbroken (conn : ConnId) (w : World) : Prop where
  admissible : ∀ transfer ∈ w.transfers conn, Admissible transfer.1
  whole : ∀ transfer ∈ (w.transfers conn).dropLast, transfer.2 = (encodeMessage transfer.1).length

theorem framesTaken_eq (conn : ConnId) (w : World) :
    w.framesTaken conn = (w.transfers conn).map Prod.fst := by
  rw [framesTaken, transfers, List.map_filterMap]
  congr 1
  funext event
  cases event with
  | send socket user frame taken =>
    cases taken with
    | none => rfl
    | some count =>
      simp only [Event.takenFor, Event.transferTo]
      split <;> rfl
  | register | unregister | close => rfl

end World

theorem flatMap_take_of_whole {transfers : List (Str × Nat)}
    (whole : ∀ transfer ∈ transfers, transfer.2 = (encodeMessage transfer.1).length) :
    transfers.flatMap (fun transfer => (encodeMessage transfer.1).take transfer.2) =
      (transfers.map Prod.fst).flatMap encodeMessage := by
  induction transfers with
  | nil => rfl
  | cons transfer transfers ih =>
    obtain ⟨first, rest⟩ := List.forall_mem_cons.mp whole
    rw [List.flatMap_cons, List.map_cons, List.flatMap_cons, ih rest, first, List.take_length]

/-- The bytes taken begin the frames' encoding. -/
theorem World.Unbroken.streamTo_eq {conn : ConnId} {w : World} (unbroken : w.Unbroken conn) :
    ∃ count, w.streamTo conn = ((w.framesTaken conn).flatMap encodeMessage).take count := by
  have whole := unbroken.whole
  rw [streamTo, framesTaken_eq]
  generalize w.transfers conn = transfers at whole
  rcases List.eq_nil_or_concat transfers with rfl | ⟨earlier, last, rfl⟩
  · exact ⟨0, rfl⟩
  · rw [List.concat_eq_append] at whole ⊢
    rw [List.dropLast_concat] at whole
    refine ⟨((earlier.map Prod.fst).flatMap encodeMessage).length + last.2, ?_⟩
    rw [List.flatMap_append, flatMap_take_of_whole whole, List.map_append, List.flatMap_append,
      List.take_length_add_append]
    simp

namespace World.Unbroken
variable {conn : ConnId} {w : World}

theorem framesTaken_admissible (unbroken : w.Unbroken conn) :
    ∀ frame ∈ w.framesTaken conn, framing.Admissible frame := by
  intro frame member
  rw [framesTaken_eq] at member
  obtain ⟨transfer, listed, rfl⟩ := List.mem_map.mp member
  exact unbroken.admissible transfer listed

/-- What has been read of a part of the bytes are the first frames. -/
theorem received_prefix (unbroken : w.Unbroken conn) {count : Nat} {received more : List Str}
    (reads : received ++ more = (framing.readAll ((w.streamTo conn).take count)).1) :
    received <+: w.framesTaken conn := by
  obtain ⟨taken, stream⟩ := unbroken.streamTo_eq
  obtain ⟨k, _, read, _⟩ := Framing.readAll_take unbroken.framesTaken_admissible (min count taken)
  have cut : (w.streamTo conn).take count =
      ((w.framesTaken conn).flatMap framing.encode).take (min count taken) := by
    rw [stream, List.take_take]
    rfl
  rw [cut, read] at reads
  exact ⟨more ++ (w.framesTaken conn).drop k, by
    rw [← List.append_assoc, reads, List.take_append_drop]⟩

/-- If no frame was cut off all of them can be read. -/
theorem readAll_eq (unbroken : w.Unbroken conn)
    (whole : ∀ transfer ∈ w.transfers conn, transfer.2 = (encodeMessage transfer.1).length) :
    (framing.readAll (w.streamTo conn)).1 = w.framesTaken conn := by
  have cut : framing.Cut (w.streamTo conn) (w.framesTaken conn) [] := by
    refine ⟨unbroken.framesTaken_admissible, ?_, fun message more ok same => ?_⟩
    · rw [List.append_nil, streamTo, flatMap_take_of_whole whole, framesTaken_eq]
      rfl
    · exact framing.encode_ne_nil ok (List.append_eq_nil_iff.mp same.symm).1
  rw [cut.readAll_eq]

end World.Unbroken

namespace Inbox
variable {s after : Inbox} {call : Call}

/-- A call leaves the frames received and those still to be read the same. -/
theorem step_reads (stepped : step s call = some after) :
    after.received ++ (framing.readAll after.stream).1 =
      s.received ++ (framing.readAll s.stream).1 := by
  cases call with
  | listen now =>
    cases decoded : decodeMessage s.stream with
    | none => simp [step, decoded] at stepped
    | some found =>
      obtain ⟨frame, rest⟩ := found
      have read : framing.decode s.stream = some (frame, rest) := decoded
      have left : after.received = s.received ++ [frame] ∧ after.stream = rest := by
        simp only [step, decoded, MessageHandler.listenOnce] at stepped
        cases parsed : MessageHandler.parseMessage frame with
        | none =>
          simp only [parsed] at stepped
          cases stepped
          exact ⟨rfl, rfl⟩
        | some event =>
          obtain ⟨type, data, args⟩ := event
          simp only [parsed] at stepped
          cases type with
          | _ =>
            cases stepped
            exact ⟨rfl, rfl⟩
      rw [left.1, left.2, Framing.readAll_some read, List.append_assoc]
      rfl
  | getUnreadMessages | readMessageByIndex | replyToMessage =>
    cases stepped
    rfl

theorem run_reads {calls : List Call} {socketFd : Fd} {stream : Str}
    (run : Run step Free (initial socketFd stream) calls s) :
    s.received ++ (framing.readAll s.stream).1 = (framing.readAll stream).1 :=
  run.invariant (P := fun s => s.received ++ (framing.readAll s.stream).1 =
    (framing.readAll stream).1) (fun same _ stepped => (step_reads stepped).trans same) rfl

end Inbox

namespace System

/-- Whatever part of the bytes has arrived and whatever the user does meanwhile, the
texts that a client has stored since its login are those of the items that the exchange
put into the box of its connection first, and of all items once everything has arrived
and been read. The letters among them were addressed to a name under which the connection had
logged in, and they keep the order in which the server accepted them. -/
theorem client_stores_box {banlist : Option Str} {labels : List (Env × Operation)} {s : System}
    {conn : ConnId} {count : Nat} {username response stream : Str} {client session : Client}
    {socketFd : Fd} {calls : List Inbox.Call} {inbox : Inbox}
    (run : Run step Regular (initial banlist) labels s)
    (running : s.world.server.status = .running) (unbroken : s.world.Unbroken conn)
    (answered : decodeMessage ((s.world.streamTo conn).take count) = some (response, stream))
    (accepted : client.conclude username (some response) = .done (.ok session))
    (listened : Run Inbox.step Free (.initial socketFd stream) calls inbox) :
    ∃ (exchange : Mail) (items : List (Message ⊕ Str)),
      Run (Exchange.step Message.recipient) Free .empty ((initial banlist).mails labels) exchange ∧
      inbox.texts = items.filterMap itemTexts ∧ items <+: exchange.boxes conn ∧
      (items.filterMap Sum.getLeft?).Sublist exchange.posted ∧
      (∀ message, .inl message ∈ items → (message.recipient, conn) ∈ exchange.entered) ∧
      ((∀ transfer ∈ s.world.transfers conn, transfer.2 = (encodeMessage transfer.1).length) →
        (s.world.streamTo conn).length ≤ count → decodeMessage inbox.stream = none →
        inbox.texts = (exchange.boxes conn).filterMap itemTexts) := by
  obtain ⟨exchange, refines, kept, carried⟩ := run_exchange run running
  have first : framing.decode ((s.world.streamTo conn).take count) = some (response, stream) :=
    answered
  have reads : (response :: inbox.received) ++ (framing.readAll inbox.stream).1 =
      (framing.readAll ((s.world.streamTo conn).take count)).1 := by
    rw [Framing.readAll_some first, List.cons_append, Inbox.run_reads listened]
  have texts : inbox.texts = (response :: inbox.received).filterMap messageTexts := by
    rw [List.filterMap_cons, messageTexts_of_login accepted]
    rfl
  have stored : inbox.texts <+: (exchange.boxes conn).filterMap itemTexts := by
    rw [carried.carries.boxes, texts]
    exact (unbroken.received_prefix reads).filterMap messageTexts
  obtain ⟨items, front, same⟩ := List.prefix_filterMap_iff.mp stored
  have delivered := (front.filterMap Sum.getLeft?).sublist
  refine ⟨exchange, items, refines, same, front, ?_, fun message member => ?_, ?_⟩
  · rw [kept.boxes] at delivered
    exact delivered.trans (kept.delivered_sublist conn)
  · have letter : message ∈ exchange.delivered conn := by
      rw [← kept.boxes]
      exact List.mem_filterMap.mpr ⟨.inl message, front.subset member, rfl⟩
    obtain ⟨entry, settled, rfl⟩ := List.mem_map.mp letter
    obtain ⟨listed, fate⟩ := List.mem_filter.mp settled
    have fate : entry.2 = .delivered conn := of_decide_eq_true fate
    exact kept.addressed (fate ▸ listed)
  · intro whole arrived done
    have left : framing.readAll inbox.stream = ([], inbox.stream) := Framing.readAll_none done
    rw [List.take_of_length_le arrived, unbroken.readAll_eq whole, left, List.append_nil] at reads
    rw [carried.carries.boxes, texts, reads]

theorem client_stores_box_of_bob : ∃ (inbox : Inbox) (exchange : Mail)
    (items : List (Message ⊕ Str)), inbox.texts = [⟨str "ann", str "hello", str "world"⟩] ∧
    inbox.texts = items.filterMap itemTexts ∧ items <+: exchange.boxes 1 := by
  let operations : List Operation := [.accept 5, .receive 0 (str "CONNECT;ann"), .accept 6,
    .receive 1 (str "CONNECT;bob"), .receive 0 (str "SEND;bob;hello;world"), .dispatch, .heartbeat]
  obtain ⟨s, ran, running, admissible, whole, checked⟩ := evaluated
    (o := Transition.execute (guarded regularly step) (initial none)
      (operations.map fun operation => (.plain, operation)))
    (P := fun s => s.world.server.status = .running ∧
      (∀ transfer ∈ s.world.transfers 1, 1 ≤ transfer.1.length ∧
        transfer.1.length ≤ Constants.maxMessageSize) ∧
      (∀ transfer ∈ (s.world.transfers 1).dropLast,
        transfer.2 = (encodeMessage transfer.1).length) ∧
      ((decodeMessage ((s.world.streamTo 1).take 100)).any fun answer =>
        answer.1 = build (str "OK") [str "Connected as bob"] ∧
        ((Transition.execute Inbox.step (.initial 7 answer.2) [.listen 0, .listen 0]).any
          fun inbox => inbox.texts = [⟨str "ann", str "hello", str "world"⟩]) = true) = true)
    (by decide)
  obtain ⟨⟨_, stream⟩, answered, rfl, checked⟩ := evaluated checked
  obtain ⟨inbox, listened, texts⟩ := evaluated checked
  have accepted : Client.conclude (str "bob") ⟨str "127.0.0.1", false, []⟩
      (some (build (str "OK") [str "Connected as bob"])) =
      .done (.ok ⟨str "127.0.0.1", true, str "bob"⟩) := by rfl
  obtain ⟨exchange, items, _, same, front, _⟩ :=
    client_stores_box (run_of_guarded regular_of_regularly _ ran) running ⟨admissible, whole⟩
      answered accepted (execute_run _ listened)
  exact ⟨inbox, exchange, items, texts, same, front⟩

end System
end SocketMessaging
