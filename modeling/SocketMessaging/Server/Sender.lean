import SocketMessaging.Server.Isolation
import SocketMessaging.Server.Relay

/-! Whose name a message carries. The server reads the sender off its registry,
and no text that passes through `split` and `sanitize` can hold a delimiter, so a
MESSAGE says what the server meant it to say, whatever bytes were sent. -/
namespace SocketMessaging
open Prog Utils MessageParser CommandHandler Dispatcher

namespace MessageParser

/-- Fields that were split off hold no delimiter. -/
theorem parse_free {raw command : Str} {arguments : List Str}
    (shape : parse raw = ⟨command, arguments, true⟩) :
    ∀ field ∈ command :: arguments, (59 : UInt8) ∉ field := by
  obtain ⟨cleaned, _, pieces⟩ := parse_eq shape
  exact pieces ▸ Delimited.free_of_splitOn cleaned

end MessageParser

namespace CommandHandler

theorem sendRequest_eq_some {env : Env} {w : World} {raw : Str} {socket : Fd} {message : Message}
    (request : sendRequest env w raw socket = some message) : ∃ recipient subject body rest,
      parse raw = ⟨str "SEND", recipient :: subject :: body :: rest, true⟩ ∧
      message = requested env w socket recipient subject body := by
  unfold sendRequest at request
  split at request
  case h_2 => cases request
  case h_1 command recipient subject body rest shape =>
    obtain ⟨rfl, same⟩ := Option.ite_none_right_eq_some.mp request
    exact ⟨recipient, subject, body, rest, shape, (Option.some.inj same).symm⟩

/-- What is queued for a frame is the message it asks for, under some recipient's name. -/
theorem queued_of_fresh {env : Env} {w : World} {raw : Str} {socket : Fd} {message : Message}
    (reject : w.Rejecting)
    (fresh : message ∈ ((handleMessage raw socket).run (exec env) w).2.queue.drop w.queue.length) :
    ∃ asked, WellFormedSend env w raw socket asked ∧
      message = { asked with recipient := message.recipient } := by
  have unqueued : message ∉ w.queue.drop w.queue.length := by
    rw [List.drop_length]
    exact List.not_mem_nil
  have asks : ∃ asked, WellFormedSend env w raw socket asked := by
    have effect := (handleMessage_changed env w raw socket).server
    unfold World.queue at fresh unqueued
    generalize ((handleMessage raw socket).run (exec env) w).2.server = after at effect fresh
    cases effect with
    | none | registered | unregistered | counted => exact absurd fresh unqueued
    | refreshed present =>
      simp only [Server.updateClientPong, present] at fresh
      exact absurd fresh unqueued
    | queued _ _ request => exact ⟨_, request⟩
  obtain ⟨asked, request⟩ := asks
  refine ⟨asked, request, ?_⟩
  rw [request.run reject] at fresh
  dsimp only at fresh
  split_ifs at fresh with everyone absent room
  · rw [World.queue_reply, World.queue_setQueue, BoundedQueue.pushAll_eq, List.drop_left] at fresh
    obtain ⟨name, _, rfl⟩ := List.mem_map.mp (List.mem_of_mem_take fresh)
    rfl
  · rw [World.queue_reply] at fresh
    exact absurd fresh unqueued
  · rw [World.queue_reply, World.queue_setQueue, List.drop_left] at fresh
    rw [List.mem_singleton.mp fresh]
  · rw [World.queue_reply] at fresh
    exact absurd fresh unqueued

end CommandHandler

namespace System

/-- The MESSAGE that the dispatcher builds for any frame is read by its recipient
as coming from a name registered for the frame's socket, with the frame's own
subject and body and the second in which it was accepted, and with no further field. -/
theorem sender_not_forged {s after : System} {env : Env} {i : ConnId} {raw : Str} {socket : Fd}
    {message : Message} (reached : Reachable s) (live : s.liveLoop i = some socket)
    (stepped : step s (env, .receive i raw) = some after)
    (fresh : message ∈ after.world.queue.drop s.world.queue.length) :
    ∃ sender info recipient subject body rest,
      s.world.server.clients.lookup sender = some info ∧ info.socket = socket ∧
      parse raw = ⟨str "SEND", recipient :: subject :: body :: rest, true⟩ ∧
      parse (formattedMessage message) = ⟨str "MESSAGE", [sender, sanitize subject, sanitize body,
        toDecimal (env.systemClock.tdiv 1000000000)], true⟩ ∧
      MessageHandler.parseMessage (formattedMessage message) =
        some { type := .message, args := (parse (formattedMessage message)).arguments } := by
  have sound := reached.sound.world
  obtain ⟨_, stepped⟩ := step_cases stepped
  cases stepped with
  | receive reads =>
    obtain rfl := Option.some.inj (live.symm.trans reads)
    obtain ⟨asked, request, same⟩ := queued_of_fresh sound.rejecting fresh
    obtain ⟨recipient, subject, body, rest, shape, rfl⟩ := sendRequest_eq_some request.request
    obtain ⟨info, present, own⟩ := lookup_of_getUsernameBySocket request.sender
    have messageSound : message.Sound := by
      refine (handleMessage_sound env sound raw (reached.sound.nonneg live)).queue message ?_
      exact List.mem_of_mem_drop fresh
    have free := parse_free shape
    have subjectFree : (59 : UInt8) ∉ message.subject := by
      rw [same]
      exact (mem_sanitize (by decide) (by decide)).not.mpr (free subject (by simp))
    have bodyFree : (59 : UInt8) ∉ message.body := by
      rw [same]
      exact (mem_sanitize (by decide) (by decide)).not.mpr (free body (by simp))
    have fields := formattedMessage_free messageSound subjectFree bodyFree
    have read : parse (formattedMessage message) = _ := MessageHandler.parse_message fields
    refine ⟨_, info, recipient, subject, body, rest, present, own, shape, ?_, ?_⟩
    · rw [read, same]
      rfl
    · rw [read]
      exact MessageHandler.parseMessage_build fields

theorem sender_not_forged_by_newline : ∃ s after message, Reachable s ∧ s.liveLoop 0 = some 5 ∧
    step s (.plain, .receive 0 (str "SEND;bob;hi\nMESSAGE;root;x")) = some after ∧
    message ∈ after.world.queue.drop s.world.queue.length ∧
    ∃ sender info recipient subject body rest,
      s.world.server.clients.lookup sender = some info ∧ info.socket = 5 ∧
      parse (str "SEND;bob;hi\nMESSAGE;root;x") =
        ⟨str "SEND", recipient :: subject :: body :: rest, true⟩ ∧
      parse (formattedMessage message) =
        ⟨str "MESSAGE", [sender, sanitize subject, sanitize body, str "0"], true⟩ ∧
      MessageHandler.parseMessage (formattedMessage message) =
        some { type := .message, args := (parse (formattedMessage message)).arguments } := by
  let raw := str "SEND;bob;hi\nMESSAGE;root;x"
  let message : Message := ⟨str "ann", str "bob", str "hi\nMESSAGE", str "root", 0⟩
  obtain ⟨s, before, live, checked⟩ := Transition.evaluated (o := plainRun (queuedMessage.take 4))
    (P := fun s => s.liveLoop 0 = some 5 ∧ ((step s (.plain, .receive 0 raw)).any fun after =>
      message ∈ after.world.queue.drop s.world.queue.length) = true) (by decide)
  obtain ⟨after, stepped, fresh⟩ := Transition.evaluated checked
  have reached := reachable_of_plainRun before
  exact ⟨s, after, message, reached, live, stepped, fresh,
    sender_not_forged reached live stepped fresh⟩

end System
end SocketMessaging
