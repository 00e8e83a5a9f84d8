import SocketMessaging.Client.MessageHandler
import SocketMessaging.Server.Frames

/-! The way of a direct message from what its sender types to what its recipient
stores: the client builds a SEND, the server parses and sanitizes it, the
dispatcher builds a MESSAGE and the recipient parses that. Fields are read by
position and not escaped, so a delimiter inside a text shifts what follows. -/
namespace SocketMessaging
open Prog Utils MessageParser NetworkStream CommandHandler Dispatcher
open Transition (evaluated)

namespace CommandHandler
variable {env : Env} {w : World} {raw : Str} {socket : Fd} {message : Message}

/-- Only a direct message that is queued is answered with this text. -/
theorem accepted_of_answered (reject : w.Rejecting) (connected : 0 ≤ socket)
    (request : sendRequest env w raw socket = some message)
    (answered : w.Answered ((handleMessage raw socket).run (exec env) w).2 socket
      (build (str "OK") [str "Message sent"])) :
    WellFormedSend env w raw socket message ∧ 0 < w.server.getUserSocket message.recipient ∧
      ((handleMessage raw socket).run (exec env) w).2.queue = w.queue ++ [message] := by
  have error : ∀ args, build (str "OK") [str "Message sent"] ≠ build (str "ERROR") args := by
    intro args same
    exact absurd (congrArg List.head? same) (show some (79 : UInt8) ≠ some 69 by decide)
  have broadcast : build (str "OK") [str "Message sent"] ≠ build (str "OK") [str "Broadcast sent"] := by
    decide
  have log : w.countReceived.os.log = w.os.log := rfl
  obtain ⟨command, recipient, subject, body, rest, rfl, handled⟩ := handleMessage_send request
  rw [handled, handleSendMessage_run env reject] at answered ⊢
  dsimp only at answered ⊢
  split_ifs at answered ⊢ with unknown badSubject badBody everyone absent room
  · exact absurd ((World.answered_reply connected rfl _ _).mp answered) (error _)
  · exact absurd ((World.answered_reply connected log _ _).mp answered) (error _)
  · exact absurd ((World.answered_reply connected log _ _).mp answered) (error _)
  · refine absurd ((World.answered_reply connected ?_ _ _).mp answered) broadcast
    exact log
  · exact absurd ((World.answered_reply connected log _ _).mp answered) (error _)
  · refine ⟨⟨request, unknown, by simpa using badSubject, by simpa using badBody⟩, ?_, ?_⟩
    · exact Int.not_le.mp absent
    · rw [World.queue_reply]
      rfl
  · exact absurd ((World.answered_reply connected log _ _).mp answered) (error _)

/-- The server reads the first pieces of the subject and the body as typed, if
the subject has only one piece. -/
theorem sendRequest_build (env : Env) (w : World) (socket : Fd) {recipient : Str}
    (subject body : Str) (free : (59 : UInt8) ∉ recipient) :
    ∃ title text, sendRequest env w (build (str "SEND") [recipient, subject, body]) socket =
        some (requested env w socket recipient title text) ∧
      (59 ∉ title ∧ title.length ≤ subject.length + body.length) ∧
      (59 ∉ text ∧ text.length ≤ subject.length + body.length) ∧
      (59 ∉ subject → 59 ∉ body → title = subject ∧ text = body) := by
  have command : (str "SEND").splitOn 59 = [str "SEND"] := List.splitOn_eq_singleton (by decide)
  have nonempty : str "SEND" ≠ [] ∨ [recipient, subject, body] ≠ [] := .inr (List.cons_ne_nil _ _)
  have parsed := parse_build nonempty
  simp only [List.flatMap_cons, List.flatMap_nil, command, List.splitOn_eq_singleton free,
    List.append_nil, List.cons_append, List.nil_append] at parsed
  obtain ⟨title, more, titles⟩ := List.exists_cons_of_ne_nil (List.splitOn_ne_nil (59 : UInt8) subject)
  obtain ⟨first, others, texts⟩ := List.exists_cons_of_ne_nil (List.splitOn_ne_nil (59 : UInt8) body)
  obtain ⟨text, rest, second⟩ : ∃ text rest, more ++ first :: others = text :: rest :=
    List.exists_cons_of_ne_nil (List.append_ne_nil_of_right_ne_nil _ (List.cons_ne_nil _ _))
  have isTitle : title ∈ subject.splitOn 59 := titles ▸ List.mem_cons_self
  have isText : text ∈ subject.splitOn 59 ∨ text ∈ body.splitOn 59 := by
    have member : text ∈ more ++ first :: others := second ▸ List.mem_cons_self
    rw [titles, texts]
    exact (List.mem_append.mp member).imp_left (List.mem_cons_of_mem _)
  rw [titles, texts, List.cons_append, second] at parsed
  refine ⟨title, text, ?_, ⟨?_, ?_⟩, ⟨?_, ?_⟩, ?_⟩
  · simp only [sendRequest, parsed, if_true]
  · exact Delimited.free_of_splitOn subject title isTitle
  · exact Nat.le_add_right_of_le (Delimited.length_le_of_mem_splitOn subject title isTitle)
  · rcases isText with inSubject | inBody
    · exact Delimited.free_of_splitOn subject text inSubject
    · exact Delimited.free_of_splitOn body text inBody
  · rcases isText with inSubject | inBody
    · exact Nat.le_add_right_of_le (Delimited.length_le_of_mem_splitOn subject text inSubject)
    · exact Nat.le_add_left_of_le (Delimited.length_le_of_mem_splitOn body text inBody)
  · intro subjectFree bodyFree
    rw [List.splitOn_eq_singleton subjectFree] at titles
    rw [List.splitOn_eq_singleton bodyFree] at texts
    cases titles
    cases texts
    cases second
    exact ⟨rfl, rfl⟩

end CommandHandler

/-- Sixty-four bits of nanoseconds make at most eleven characters of seconds. -/
theorem timestampToUnixString_length (env : Env) :
    (timestampToUnixString env.systemClock).length ≤ 11 := by
  have range := env.systemClock_range
  have seconds : (env.systemClock.tdiv 1000000000).natAbs < 10 ^ 10 := by
    rw [Int.natAbs_tdiv]
    change env.systemClock.natAbs / 1000000000 < 10 ^ 10
    omega
  have digits := (Nat.length_toDigits_le_iff (by decide) (by decide)).mpr seconds
  unfold timestampToUnixString toDecimal
  dsimp only
  split_ifs
  · rw [List.length_cons, List.length_map]
    omega
  · rw [List.length_map]
    omega

namespace Dispatcher

/-- The fields of a MESSAGE are free of the delimiter when the two texts are. -/
theorem formattedMessage_free {message : Message} (sound : message.Sound)
    (subject : (59 : UInt8) ∉ message.subject) (body : (59 : UInt8) ∉ message.body) :
    ∀ field ∈ [message.sender, message.subject, message.body,
      timestampToUnixString message.timestamp], (59 : UInt8) ∉ field := by
  have time : (59 : UInt8) ∉ timestampToUnixString message.timestamp := by
    intro member
    rcases toDecimal_mem member with minus | digit
    · exact absurd minus (by decide)
    · exact absurd digit (by decide)
  intro field member
  simp only [List.mem_cons, List.not_mem_nil, or_false] at member
  rcases member with rfl | rfl | rfl | rfl
  · exact sound.sender.text.no_delimiter
  · exact subject
  · exact body
  · exact time

/-- A recipient reads the fields of such a message as they were queued. -/
theorem receives_formattedMessage_iff (env : Env) {message : Message} (sound : message.Sound)
    (clock : message.timestamp = env.systemClock) (subject : (59 : UInt8) ∉ message.subject)
    (body : (59 : UInt8) ∉ message.body)
    (short : message.subject.length + message.body.length < 2 ^ 31) {now : Int} {rest : Str}
    {handler : MessageHandler} {name title text : Str} :
    handler.Receives now (encodeMessage (formattedMessage message) ++ rest) name title text ↔
      message.payload + 12 ≤ Constants.maxMessageSize ∧ message.sender = name ∧
        message.subject = title ∧ message.body = text := by
  have representable : (formattedMessage message).length < 2 ^ 32 := by
    have name := sound.sender.bounded
    have clock := clock ▸ timestampToUnixString_length env
    have command : (str "MESSAGE").length = 7 := rfl
    rw [formattedMessage, build_length]
    simp only [List.map_cons, List.map_nil, List.sum_cons, List.sum_nil, command]
    omega
  rw [← admissible_formattedMessage]
  exact MessageHandler.receives_message_iff (formattedMessage_free sound subject body) representable

end Dispatcher

namespace System

/-- What is written to the recipient when a message is dispatched is its MESSAGE frame. -/
theorem frame_of_dispatch {t final : System} {env : Env} {message : Message} {rest : List Message}
    {info : ClientInfo} {frame : Str} (front : t.world.queue = message :: rest)
    (dispatched : step t (env, .dispatch) = some final)
    (present : t.world.server.clients.lookup message.recipient = some info)
    (written : t.world.Written final.world info.socket frame) : frame = formattedMessage message := by
  have logged : final.world.os.log = t.world.os.log ++ writes env (t.world.setQueue rest) message := by
    rw [dispatch_world front dispatched, deliver_log]
    rfl
  have found := getUserSocket_of_lookup present
  have same : ∀ name, (t.world.setQueue rest).server.getUserSocket name =
      t.world.server.getUserSocket name := fun _ => rfl
  obtain ⟨conn, member⟩ := written
  rw [World.since_eq logged, writes] at member
  simp only [same, found] at member
  split_ifs at member with connected reachable
  · have event := List.mem_singleton.mp member
    simp only [Event.send.injEq] at event
    exact event.2.2.1
  · have event := List.mem_singleton.mp member
    simp only [Event.send.injEq] at event
    exact absurd (event.1 ▸ reachable) connected
  · exact absurd member List.not_mem_nil

/-- The recipient stores what the sender typed, up to sanitizing, exactly when
neither text contains the delimiter and the MESSAGE frame is not too long. -/
theorem content_kept_iff {s accepted t final : System} {env env' : Env} {i : ConnId}
    {config : RuntimeConfig} {transfer : Str → Option Nat} {client receiver : MessageHandler}
    {recipient subject body raw : Str} {socket : Fd} {message : Message} {rest : List Message}
    {info : ClientInfo} {frame more : Str} {now : Int} (reached : Reachable s)
    (live : s.liveLoop i = some socket) (direct : recipient ≠ str "all")
    (sent : client.sendMessage config transfer recipient subject body = (true, some raw))
    (stepped : step s (env, .receive i raw) = some accepted)
    (answered : s.world.Answered accepted.world socket (build (str "OK") [str "Message sent"]))
    (fresh : message ∈ accepted.world.queue.drop s.world.queue.length)
    (front : t.world.queue = message :: rest)
    (dispatched : step t (env', .dispatch) = some final)
    (present : t.world.server.clients.lookup message.recipient = some info)
    (written : t.world.Written final.world info.socket frame) :
    receiver.Receives now (encodeMessage frame ++ more)
        (s.world.server.getUsernameBySocket env socket) (sanitize subject) (sanitize body) ↔
      59 ∉ subject ∧ 59 ∉ body ∧
        (s.world.server.getUsernameBySocket env socket).length + subject.length + body.length +
          (timestampToUnixString env.systemClock).length + 12 ≤ Constants.maxMessageSize := by
  have sound := reached.sound
  have nonneg := sound.nonneg live
  have visible : ∀ {text : Str}, (59 : UInt8) ∈ sanitize text ↔ 59 ∈ text :=
    mem_sanitize (by decide) (by decide)
  obtain ⟨name, rfl⟩ := MessageHandler.sendMessage_eq_some direct sent
  obtain rfl := frame_of_dispatch front dispatched present written
  obtain ⟨title, text, request, ⟨titleFree, titleShort⟩, ⟨textFree, textShort⟩, typed⟩ :=
    sendRequest_build env s.world socket subject body name.no_delimiter
  obtain ⟨_, received⟩ := step_cases stepped
  cases received with
  | receive reads _ admissible =>
    obtain rfl := Option.some.inj (live.symm.trans reads)
    obtain ⟨formed, positive, queued⟩ :=
      accepted_of_answered sound.world.rejecting nonneg request answered
    have only : (s.execute env (handleMessage (build (str "SEND") [recipient, subject, body])
        socket)).world.queue.drop s.world.queue.length = [requested env s.world socket recipient
          title text] := by
      rw [show (s.execute env _).world.queue = _ from queued, List.drop_left]
    obtain rfl := List.mem_singleton.mp (only ▸ fresh)
    have messageSound := formed.message_sound sound.world
      ⟨_, handleOf_of_getUserSocket positive⟩
    have limit := admissible.2
    rw [build_length] at limit
    simp only [List.map_cons, List.map_nil, List.sum_cons, List.sum_nil,
      Constants.maxMessageSize] at limit
    have short : (sanitize title).length + (sanitize text).length < 2 ^ 31 := by
      rw [sanitize_length, sanitize_length]
      omega
    have subjectFree : (59 : UInt8) ∉ sanitize title := visible.not.mpr titleFree
    have bodyFree : (59 : UInt8) ∉ sanitize text := visible.not.mpr textFree
    rw [receives_formattedMessage_iff env messageSound rfl subjectFree bodyFree short]
    constructor
    · rintro ⟨fits, _, sameSubject, sameBody⟩
      change sanitize title = sanitize subject at sameSubject
      change sanitize text = sanitize body at sameBody
      have cleanSubject : (59 : UInt8) ∉ subject := visible.not.mp (sameSubject ▸ subjectFree)
      have cleanBody : (59 : UInt8) ∉ body := visible.not.mp (sameBody ▸ bodyFree)
      obtain ⟨rfl, rfl⟩ := typed cleanSubject cleanBody
      simp only [Message.payload, requested, sanitize_length] at fits
      exact ⟨cleanSubject, cleanBody, fits⟩
    · rintro ⟨cleanSubject, cleanBody, fits⟩
      obtain ⟨rfl, rfl⟩ := typed cleanSubject cleanBody
      refine ⟨?_, rfl, rfl, rfl⟩
      simp only [Message.payload, requested, sanitize_length]
      exact fits

/-- A client that has not received anything yet. -/
def freshHandler : MessageHandler := ⟨7, [], [], 0⟩

theorem content_kept_of_plain_text : ∃ (s accepted final : System) (raw frame : Str), Reachable s ∧
    freshHandler.sendMessage .initial (fun _ => some 1) (str "bob") (str "hello") (str "world") =
      (true, some raw) ∧
    step s (.plain, .receive 0 raw) = some accepted ∧
    step accepted (.plain, .dispatch) = some final ∧ accepted.world.Written final.world 6 frame ∧
    freshHandler.Receives 0 (encodeMessage frame ++ []) (str "ann") (sanitize (str "hello"))
      (sanitize (str "world")) := by
  let message : Message := ⟨str "ann", str "bob", str "hello", str "world", 0⟩
  let raw := sendToBob (str "world")
  let frame := formattedMessage message
  obtain ⟨s, before, live, sender, checked⟩ := evaluated (o := plainRun (queuedMessage.take 4))
    (P := fun s => s.liveLoop 0 = some 5 ∧
      s.world.server.getUsernameBySocket .plain 5 = str "ann" ∧
      ((step s (.plain, .receive 0 raw)).any fun accepted =>
        .send 5 (some 0) (build (str "OK") [str "Message sent"]) (some 20) ∈
            s.world.since accepted.world ∧
          message ∈ accepted.world.queue.drop s.world.queue.length ∧
          accepted.world.queue = [message] ∧
          accepted.world.server.clients.lookup (str "bob") = some ⟨6, 0, false⟩ ∧
          ((step accepted (.plain, .dispatch)).any fun final =>
            .send 6 (some 1) frame (some (encodeMessage frame).length) ∈
              accepted.world.since final.world) = true) = true) (by decide)
  obtain ⟨accepted, stepped, answer, fresh, front, present, checked⟩ := evaluated checked
  obtain ⟨final, dispatched, event⟩ := evaluated checked
  have sent : freshHandler.sendMessage .initial (fun _ => some 1) (str "bob") (str "hello")
      (str "world") = (true, some raw) := by decide
  have reached := reachable_of_plainRun before
  have direct : str "bob" ≠ str "all" := by decide
  refine ⟨s, accepted, final, raw, _, reached, sent, stepped, dispatched, ⟨_, event⟩, ?_⟩
  rw [← sender]
  apply (content_kept_iff reached live direct sent stepped ⟨_, _, answer⟩ fresh front dispatched
    present ⟨_, event⟩).mpr
  rw [sender]
  decide

/-- What follows a delimiter in the body is lost, though the sender is told OK. -/
theorem content_not_always_kept : ¬ ∀ (s accepted t final : System) (env env' : Env) (i : ConnId)
    (config : RuntimeConfig) (transfer : Str → Option Nat) (client receiver : MessageHandler)
    (recipient subject body raw : Str) (socket : Fd) (message : Message) (rest : List Message)
    (info : ClientInfo) (frame more : Str) (now : Int), Reachable s →
    s.liveLoop i = some socket → recipient ≠ str "all" →
    client.sendMessage config transfer recipient subject body = (true, some raw) →
    step s (env, .receive i raw) = some accepted →
    s.world.Answered accepted.world socket (build (str "OK") [str "Message sent"]) →
    message ∈ accepted.world.queue.drop s.world.queue.length →
    t.world.queue = message :: rest → step t (env', .dispatch) = some final →
    t.world.server.clients.lookup message.recipient = some info →
    t.world.Written final.world info.socket frame →
    receiver.Receives now (encodeMessage frame ++ more)
      (s.world.server.getUsernameBySocket env socket) (sanitize subject) (sanitize body) := by
  intro claimed
  let body := str "bring milk; and bread"
  let message : Message := ⟨str "ann", str "bob", str "hello", str "bring milk", 0⟩
  let raw := sendToBob body
  let frame := formattedMessage message
  obtain ⟨s, before, live, checked⟩ := evaluated (o := plainRun (queuedMessage.take 4))
    (P := fun s => s.liveLoop 0 = some 5 ∧
      ((step s (.plain, .receive 0 raw)).any fun accepted =>
        .send 5 (some 0) (build (str "OK") [str "Message sent"]) (some 20) ∈
            s.world.since accepted.world ∧
          message ∈ accepted.world.queue.drop s.world.queue.length ∧
          accepted.world.queue = [message] ∧
          accepted.world.server.clients.lookup (str "bob") = some ⟨6, 0, false⟩ ∧
          ((step accepted (.plain, .dispatch)).any fun final =>
            .send 6 (some 1) frame (some (encodeMessage frame).length) ∈
              accepted.world.since final.world) = true) = true) (by decide)
  obtain ⟨accepted, stepped, answer, fresh, front, present, checked⟩ := evaluated checked
  obtain ⟨final, dispatched, event⟩ := evaluated checked
  have sent : freshHandler.sendMessage .initial (fun _ => some 1) (str "bob") (str "hello") body =
      (true, some raw) := by decide
  obtain ⟨heard, msg, received, stored, _, _, same⟩ := claimed s accepted accepted final .plain
    .plain 0 .initial _ freshHandler freshHandler (str "bob") (str "hello") body raw 5 message []
    ⟨6, 0, false⟩ frame [] 0 (reachable_of_plainRun before) live (by decide) sent stepped
    ⟨_, _, answer⟩ fresh front dispatched present ⟨_, event⟩
  have texts : (freshHandler.listenOnce 0 (encodeMessage frame ++ [])).map (fun heard =>
      heard.handler.unreadMessages.map ReceivedMessage.body) = some [str "bring milk"] := by
    decide
  rw [received, Option.map_some, stored, Option.some.injEq] at texts
  rw [show msg.body = str "bring milk" from (List.cons.inj texts).1] at same
  exact absurd same (by decide)

end System
end SocketMessaging
