import SocketMessaging.Client.Inbox
import SocketMessaging.Server.Relay

/-! Messages of the administrator on their way from the console to a client. The
line is split at spaces and joined again without loss; then the text is a field of
a frame, where a delimiter in it ends it. -/
namespace SocketMessaging
open Prog Utils MessageParser NetworkStream

namespace AdminCommandHandler

/-- Words split off at spaces and joined by spaces are the text they were. -/
theorem joinArgs_splitOn (before : List Str) (m : Str) :
    joinArgs before.length (before ++ m.splitOn 32) = m := by
  rw [joinArgs, List.drop_left]
  exact List.intercalate_splitOn 32

theorem split_words {word : Str} (text : Str) (free : (32 : UInt8) ∉ word) :
    split (word ++ 32 :: text) (str " ") = word :: text.splitOn 32 := by
  rw [show str " " = [32] from rfl, split_singleton (by simp)]
  exact List.splitOn_append_cons_self_of_not_mem free text

theorem commandLine_broadcast (m : Str) :
    commandLine (str "/broadcast " ++ m) = cmdBroadcast (str "broadcast" :: m.splitOn 32) := by
  have line : str "/broadcast " ++ m = 47 :: (str "broadcast" ++ 32 :: m) := rfl
  have read := split_words m (by decide : (32 : UInt8) ∉ str "broadcast")
  have found : commands.lookup (str "broadcast") = some ⟨cmdBroadcast, 1⟩ := rfl
  have enough : ¬ (m.splitOn 32).length < 1 := by
    have nonempty := List.length_pos_iff.mpr (List.splitOn_ne_nil 32 m)
    omega
  simp only [line, commandLine, ne_eq, not_true_eq_false, if_false, read, found, enough]

theorem commandLine_send {username : Str} (free : (32 : UInt8) ∉ username) (m : Str) :
    commandLine (str "/send " ++ username ++ str " " ++ m) =
      cmdSend (str "send" :: username :: m.splitOn 32) := by
  have line : str "/send " ++ username ++ str " " ++ m =
      47 :: (str "send" ++ 32 :: (username ++ 32 :: m)) := by
    rw [List.append_assoc, List.append_assoc]
    rfl
  have read : split (str "send" ++ 32 :: (username ++ 32 :: m)) (str " ") =
      str "send" :: username :: m.splitOn 32 := by
    rw [split_words _ (by decide), List.splitOn_append_cons_self_of_not_mem free]
  have found : commands.lookup (str "send") = some ⟨cmdSend, 2⟩ := rfl
  have enough : ¬ (username :: m.splitOn 32).length < 2 := by
    have nonempty := List.length_pos_iff.mpr (List.splitOn_ne_nil 32 m)
    rw [List.length_cons]
    omega
  simp only [line, commandLine, ne_eq, not_true_eq_false, if_false, read, found, enough]

/-- All that the action sends is this message. -/
def Sends (message : Str) {β : Type} (action : Action β) : Prop :=
  ∀ w event, action.Logs w event → ∃ socket conn taken, event = .send socket conn message taken

theorem sends_send (socket : Fd) (message : Str) : Sends message (Action.send socket message) := by
  rintro w event ⟨taken, logged⟩
  exact ⟨socket, w.os.user socket, taken, logged⟩

theorem cmdBroadcast_sends (m : Str) : (cmdBroadcast (str "broadcast" :: m.splitOn 32)).Only
    (Sends (announcement (str "Announcement") m)) := by
  have text : joinArgs 1 (str "broadcast" :: m.splitOn 32) = m :=
    joinArgs_splitOn [str "broadcast"] m
  refine ⟨fun _ _ nothing => nothing.elim, fun clients => ?_⟩
  change (sendToAll (announcement (str "Announcement") (joinArgs 1 _)) clients).Only _
  rw [text]
  exact sendToAll_only (fun socket => sends_send socket _) clients

theorem cmdSend_sends (username m : Str) :
    (cmdSend (str "send" :: username :: m.splitOn 32)).Only
      (Sends (announcement (str "Private Message") m)) := by
  have text : joinArgs 2 (str "send" :: username :: m.splitOn 32) = m :=
    joinArgs_splitOn [str "send", username] m
  refine ⟨fun _ _ nothing => nothing.elim, fun socket => ?_⟩
  change (if socket ≤ 0 then .done () else .act (.send socket
    (announcement (str "Private Message") (joinArgs 2 _))) fun _ => .done () : Handler).Only _
  rw [text, only_ite]
  exact ⟨fun _ => trivial, fun _ => ⟨sends_send socket _, fun _ => trivial⟩⟩

/-- What is written when a line is processed is what its program sends. -/
theorem frame_of_line {s after : System} {env : Env} {line message frame : Str} {socket : Fd}
    (stepped : System.step s (env, .admin line) = some after)
    (sends : (commandLine line).Only (Sends message))
    (written : s.world.Written after.world socket frame) : frame = message := by
  obtain ⟨_, stepped⟩ := System.step_cases stepped
  cases stepped
  obtain ⟨events, logged, each⟩ := run_log env sends s.world
  obtain ⟨conn, member⟩ := written
  have listed : Event.send socket conn frame (some (encodeMessage frame).length) ∈ events :=
    World.since_eq logged ▸ member
  obtain ⟨_, _, _, same⟩ := each _ listed
  simp only [Event.send.injEq] at same
  exact same.2.2.1

end AdminCommandHandler

namespace MessageHandler
open AdminCommandHandler

/-- The next iteration of `listen` stores a message from this sender, with this
body and this time. -/
def Stores (now : Int) (stream : Str) (handler : MessageHandler) (sender body : Str)
    (timestamp : Int) : Prop :=
  ∃ heard msg, handler.listenOnce now stream = some heard ∧
    heard.handler.unreadMessages = handler.unreadMessages ++ [msg] ∧
    msg.sender = sender ∧ msg.body = body ∧ msg.timestamp = timestamp

variable {now : Int} {stream rest sender body subject m : Str} {handler : MessageHandler}
  {timestamp : Int}

/-- What is stored is read from the first frame of the stream. -/
theorem Stores.frame (stores : handler.Stores now stream sender body timestamp) :
    ∃ frame rest texts, decodeMessage stream = some (frame, rest) ∧
      messageTexts frame = some texts ∧ texts.body = body := by
  obtain ⟨heard, msg, listened, stored, _, text, _⟩ := stores
  unfold listenOnce at listened
  cases decoded : decodeMessage stream with
  | none => simp [decoded] at listened
  | some found =>
    obtain ⟨frame, rest⟩ := found
    simp only [decoded] at listened
    rcases Inbox.parseMessage_cases frame with ⟨texts, time, fields, parsed⟩ | ⟨_, apart⟩
    · simp only [parsed] at listened
      cases listened
      refine ⟨frame, rest, texts, rfl, fields, ?_⟩
      obtain rfl := (List.cons.inj (List.append_cancel_left stored)).1
      exact text
    · have unchanged : heard.handler = handler := by
        cases parsed : parseMessage frame with
        | none =>
          simp only [parsed] at listened
          cases listened
          rfl
        | some event =>
          obtain ⟨type, data, args⟩ := event
          simp only [parsed] at listened
          cases type with
          | message => exact absurd rfl (apart _ parsed)
          | _ =>
            cases listened
            rfl
      rw [unchanged] at stored
      exact absurd (List.self_eq_append_right.mp stored) (List.cons_ne_nil _ _)

/-- A text that is read from a frame is no longer than the frame. -/
theorem body_length_le {frame : Str} {texts : Texts} (fields : messageTexts frame = some texts) :
    texts.body.length ≤ frame.length := by
  unfold messageTexts at fields
  dsimp only at fields
  split at fields
  · rename_i formed
    obtain ⟨valid, _, enough⟩ := formed
    cases fields
    have shape : parse frame = ⟨(parse frame).command, (parse frame).arguments, true⟩ := by
      rw [← valid]
    obtain ⟨cleaned, whole, pieces⟩ := parse_eq shape
    have inside : 2 < (parse frame).arguments.length := Nat.lt_of_lt_of_le (by decide) enough
    have member : (parse frame).arg 2 ∈ cleaned.splitOn 59 := by
      rw [pieces, ParsedMessage.arg, List.getD_eq_getElem?_getD, List.getElem?_eq_getElem inside]
      exact List.mem_cons_of_mem _ (List.getElem_mem inside)
    have short := Delimited.length_le_of_mem_splitOn cleaned _ member
    have shorter : cleaned.length ≤ frame.length := by
      split at whole
      · have length := congrArg List.length whole
        rw [List.length_append] at length
        omega
      · exact Nat.le_of_eq (congrArg List.length whole.symm)
    exact Nat.le_trans short shorter
  · cases fields

theorem announcement_length : (announcement subject m).length = subject.length + m.length + 19 := by
  rw [announcement, build_length]
  have command : (str "MESSAGE").length = 7 := rfl
  have server : (str "SERVER").length = 6 := rfl
  have time : (str "0").length = 1 := rfl
  simp only [List.map_cons, List.map_nil, List.sum_cons, List.sum_nil, command, server, time]
  omega

/-- A client stores an announcement as it was meant exactly if the text holds no
delimiter and the frame is not too long. -/
theorem stores_announcement_iff (free : (59 : UInt8) ∉ subject) (short : subject.length ≤ 100) :
    handler.Stores now (encodeMessage (announcement subject m) ++ rest) (str "SERVER") m 0 ↔
      59 ∉ m ∧ subject.length + m.length + 19 ≤ Constants.maxMessageSize := by
  let fields := [str "SERVER", subject, m, str "0"]
  have size : Admissible (announcement subject m) ↔
      subject.length + m.length + 19 ≤ Constants.maxMessageSize := by
    rw [Admissible, announcement_length]
    exact and_iff_right (Nat.le_add_left 1 _)
  have command : str "MESSAGE" ≠ [] ∨ fields ≠ [] := .inl (List.cons_ne_nil _ _)
  rw [← size]
  constructor
  · intro stores
    obtain ⟨frame, after, texts, decoded, read, same⟩ := stores.frame
    -- the text came out of a frame, so it is short enough for the length of its own
    have bounded : m.length ≤ Constants.maxMessageSize := by
      have length := body_length_le read
      rw [same] at length
      exact Nat.le_trans length (decodeMessage_eq_some.mp decoded).1.2
    have representable : (announcement subject m).length < 2 ^ 32 := by
      rw [announcement_length]
      simp only [Constants.maxMessageSize] at bounded
      omega
    rw [decode_encode representable] at decoded
    obtain ⟨fits, same'⟩ := Option.ite_none_right_eq_some.mp decoded
    cases same'
    refine ⟨?_, fits⟩
    -- the body that was read is what stands before the first delimiter
    have parsed : parse (announcement subject m) = _ := parse_build command
    obtain ⟨first, later, pieces⟩ := List.exists_cons_of_ne_nil (List.splitOn_ne_nil (59 : UInt8) m)
    rw [messageTexts, parsed] at read
    simp only [List.flatMap_cons, List.flatMap_nil, pieces,
      List.splitOn_eq_singleton (by decide : (59 : UInt8) ∉ str "MESSAGE"),
      List.splitOn_eq_singleton (by decide : (59 : UInt8) ∉ str "SERVER"),
      List.splitOn_eq_singleton free, List.cons_append] at read
    obtain ⟨_, texts_eq⟩ := Option.ite_none_right_eq_some.mp read
    obtain rfl := Option.some.inj texts_eq
    have body : first = m := same
    exact body ▸ Delimited.free_of_splitOn m first (pieces ▸ List.mem_cons_self)
  · rintro ⟨clean, fits⟩
    have separate : ∀ field ∈ fields, (59 : UInt8) ∉ field := by
      intro field listed
      simp only [fields, List.mem_cons, List.not_mem_nil, or_false] at listed
      rcases listed with rfl | rfl | rfl | rfl
      · decide
      · exact free
      · exact clean
      · decide
    have parsed : parseMessage (announcement subject m) = _ := parseMessage_build separate
    have decoded := (decode_encode fits.representable : decodeMessage (encodeMessage (announcement subject m) ++ rest) = _)
    rw [if_pos fits] at decoded
    refine ⟨_, _, by rw [listenOnce, decoded]; simp only [parsed]; rfl, rfl, rfl, rfl, ?_⟩
    simp only [List.getD_cons_succ, List.getD_cons_zero]
    exact unixStringToTimestamp_zero now

end MessageHandler

namespace System
open AdminCommandHandler

/-- A registered user stores the text of a `/broadcast` or of a `/send` as the
administrator typed it exactly if it holds no delimiter and its frame is not too long. -/
theorem announcement_unchanged_iff {s after : System} {env : Env} {username m frame rest : Str}
    {info : ClientInfo} {receiver : MessageHandler} {now : Int} (reached : Reachable s)
    (present : s.world.server.clients.lookup username = some info)
    (written : s.world.Written after.world info.socket frame) :
    (step s (env, .admin (str "/broadcast " ++ m)) = some after →
      (receiver.Stores now (encodeMessage frame ++ rest) (str "SERVER") m 0 ↔
        59 ∉ m ∧ m.length + 31 ≤ Constants.maxMessageSize)) ∧
    (step s (env, .admin (str "/send " ++ username ++ str " " ++ m)) = some after →
      (receiver.Stores now (encodeMessage frame ++ rest) (str "SERVER") m 0 ↔
        59 ∉ m ∧ m.length + 34 ≤ Constants.maxMessageSize)) := by
  constructor
  · intro stepped
    have sends := commandLine_broadcast m ▸ cmdBroadcast_sends m
    rw [frame_of_line stepped sends written,
      MessageHandler.stores_announcement_iff (by decide) (by decide)]
    have length : (str "Announcement").length = 12 := rfl
    rw [length, show 12 + m.length + 19 = m.length + 31 by omega]
  · intro stepped
    have valid := (reached.sound.world.names (handleOf_eq_some.mpr ⟨info, present, rfl⟩)).1
    have free : (32 : UInt8) ∉ username := valid.text.free (by decide) (by decide)
    have sends := commandLine_send free m ▸ cmdSend_sends username m
    rw [frame_of_line stepped sends written,
      MessageHandler.stores_announcement_iff (by decide) (by decide)]
    have length : (str "Private Message").length = 15 := rfl
    rw [length, show 15 + m.length + 19 = m.length + 34 by omega]

/-- The administrator writes to ann, with runs of spaces and a comma. -/
theorem announcement_unchanged_of_ann : ∃ (s after : System) (info : ClientInfo) (frame : Str),
    Reachable s ∧ s.world.server.clients.lookup (str "ann") = some info ∧
    s.world.Written after.world info.socket frame ∧
    freshHandler.Stores 0 (encodeMessage frame ++ []) (str "SERVER") (str " hi,  bob ") 0 := by
  let line := str "/send " ++ str "ann" ++ str " " ++ str " hi,  bob "
  let frame := announcement (str "Private Message") (str " hi,  bob ")
  obtain ⟨s, ran, present, more⟩ := Transition.evaluated
    (o := plainRun [.accept 5, .receive 0 (str "CONNECT;ann")])
    (P := fun s => s.world.server.clients.lookup (str "ann") = some ⟨5, 0, false⟩ ∧
      ((step s (.plain, .admin line)).any fun after =>
        .send 5 (some 0) frame (some (encodeMessage frame).length) ∈ s.world.since after.world) = true)
    (by decide)
  obtain ⟨after, stepped, member⟩ := Transition.evaluated more
  have reached := reachable_of_plainRun ran
  have written : s.world.Written after.world 5 frame := ⟨some 0, member⟩
  exact ⟨s, after, _, frame, reached, present, written,
    ((announcement_unchanged_iff reached present written).2 stepped).mpr (by decide)⟩

/-- The text of a `/broadcast` ends for its readers at the first semicolon. -/
theorem announcement_not_always_unchanged : ¬ ∀ (s after : System) (env : Env)
    (username m frame rest : Str) (info : ClientInfo) (receiver : MessageHandler) (now : Int),
    Reachable s → 10 ∉ m → s.world.server.clients.lookup username = some info →
    step s (env, .admin (str "/broadcast " ++ m)) = some after →
    s.world.Written after.world info.socket frame →
    receiver.Stores now (encodeMessage frame ++ rest) (str "SERVER") m 0 := by
  intro claimed
  let text := str "hello; world"
  let frame := announcement (str "Announcement") text
  obtain ⟨s, ran, present, more⟩ := Transition.evaluated
    (o := plainRun [.accept 5, .receive 0 (str "CONNECT;ann")])
    (P := fun s => s.world.server.clients.lookup (str "ann") = some ⟨5, 0, false⟩ ∧
      ((step s (.plain, .admin (str "/broadcast " ++ text))).any fun after =>
        .send 5 (some 0) frame (some (encodeMessage frame).length) ∈ s.world.since after.world) = true)
    (by decide)
  obtain ⟨after, stepped, member⟩ := Transition.evaluated more
  have stores := claimed s after .plain (str "ann") text frame [] _ freshHandler 0
    (reachable_of_plainRun ran) (by decide) present stepped ⟨some 0, member⟩
  have clean := ((MessageHandler.stores_announcement_iff (by decide) (by decide)).mp stores).1
  exact absurd clean (by decide)

end System
end SocketMessaging
