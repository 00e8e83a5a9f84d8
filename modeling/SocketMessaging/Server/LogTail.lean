import SocketMessaging.Client.MessageHandler
import SocketMessaging.Server.HandlerSpecs
import SocketMessaging.Server.System

/-! The log as a client receives it. Its last lines are one field of the reply,
which the client's parser cuts at every delimiter that they contain. -/
namespace SocketMessaging
open Prog Utils MessageParser NetworkStream CommandHandler Transition

/-- The lines that are sent: the last fifty, or all if there are fewer. -/
def lastLines (content : Str) : List Str :=
  let lines := fileLines content
  lines.drop (lines.length - min 50 lines.length)

/-- Those lines as they should arrive, each followed by a newline. -/
def logContent (content : Str) : Str := (lastLines content).flatMap fun line => line ++ [10]

theorem logTail_eq (content : Str) : logTail (fileLines content) = logContent content := by
  have start : (if 50 < (fileLines content).length then (fileLines content).length - 50 else 0) =
      (fileLines content).length - min 50 (fileLines content).length := by
    split_ifs <;> omega
  rw [logTail, start]
  rfl

theorem fileLines_ne_nil {content : Str} (nonempty : content ≠ []) :
    fileLines content ≠ [] := by
  intro empty
  have pieces := List.splitOn_ne_nil (10 : UInt8) content
  have joined : [10].intercalate (content.splitOn 10) = content := List.intercalate_splitOn 10
  unfold fileLines at empty
  dsimp only at empty
  split_ifs at empty with last
  · have single : content.splitOn 10 = [[]] := by
      rw [← List.dropLast_append_getLast? _ last, empty, List.nil_append]
    rw [single] at joined
    exact nonempty joined.symm
  · exact pieces empty

theorem mem_logContent {content : Str} : (59 : UInt8) ∈ logContent content ↔
    ∃ line ∈ lastLines content, (59 : UInt8) ∈ line := by
  simp [logContent]

/-- Only the text before the first delimiter is read as the log. -/
theorem parse_log (text : Str) :
    parse (build (str "LOG") [text]) = ⟨str "LOG", text.splitOn 59, true⟩ := by
  have command : (str "LOG").splitOn 59 = [str "LOG"] :=
    List.splitOn_eq_singleton (by decide : (59 : UInt8) ∉ str "LOG")
  have nonempty : str "LOG" ≠ [] ∨ [text] ≠ [] := .inr (List.cons_ne_nil _ _)
  rw [parse_build nonempty, List.flatMap_cons, command, List.flatMap_singleton]
  rfl

theorem listenOnce_log {text : Str} (admissible : Admissible (build (str "LOG") [text]))
    (handler : MessageHandler) (now : Int) (rest : Str) :
    handler.listenOnce now (encodeMessage (build (str "LOG") [text]) ++ rest) =
      some ⟨handler, rest, some { type := .log, data := (text.splitOn 59).getD 0 [] }, none⟩ := by
  have decoded : decodeMessage (encodeMessage (build (str "LOG") [text]) ++ rest) =
      some (build (str "LOG") [text], rest) := by
    rw [decode_encode admissible.representable, if_pos admissible]
  have some_ : 1 ≤ (text.splitOn 59).length :=
    List.length_pos_iff.mpr (List.splitOn_ne_nil 59 text)
  have event : MessageHandler.parseMessage (build (str "LOG") [text]) =
      some { type := .log, data := (text.splitOn 59).getD 0 [] } := by
    rw [MessageHandler.parseMessage, parse_log]
    simp only [ParsedMessage.argCount, some_, and_true]
    rfl
  simp only [MessageHandler.listenOnce, decoded, event]

/-- Nothing is cut off exactly if there is no delimiter. -/
theorem splitOn_head_eq_iff (text : Str) :
    (text.splitOn 59).getD 0 [] = text ↔ (59 : UInt8) ∉ text := by
  constructor
  · intro whole
    obtain ⟨first, others, shape⟩ := List.exists_cons_of_ne_nil (List.splitOn_ne_nil 59 text)
    have free := Delimited.free_of_splitOn text first (by rw [shape]; exact List.mem_cons_self)
    rw [shape, List.getD_cons_zero] at whole
    rwa [whole] at free
  · intro free
    rw [List.splitOn_eq_singleton free, List.getD_cons_zero]

theorem handleMessage_getLog {raw : Str} (valid : (parse raw).isValid = true)
    (command : (parse raw).command = str "GET_LOG") (env : Env) (socket : Fd) {content : Str}
    (logged : env.serverLog = some content) (nonempty : content ≠ []) (w : World) :
    ((handleMessage raw socket).run (exec env) w).2 =
      w.reply env socket (build (str "LOG") [logContent content]) := by
  have found : commands.lookup (str "GET_LOG") = some handleGetLog := rfl
  simp only [handleMessage, valid, if_true, executeCommand, command, found, handleGetLog,
    perform_bind, run_serverLog, logged, fileLines_ne_nil nonempty, if_false, logTail_eq]
  rfl

/-- The reply to a GET_LOG frame while the log file is not empty, in whatever state the
server is: if it is short enough to be received, the client gets the last lines as they
are exactly if none of them contains a delimiter. -/
theorem log_intact_iff {env : Env} {w : World} {raw : Str} {socket : Fd} (connected : 0 ≤ socket)
    (valid : (parse raw).isValid = true) (command : (parse raw).command = str "GET_LOG")
    {content : Str} (logged : env.serverLog = some content) (nonempty : content ≠ []) :
    ∃ reply taken, w.since ((handleMessage raw socket).run (exec env) w).2 =
        [.send socket (w.os.user socket) reply taken] ∧
      (Admissible reply → ∀ (handler : MessageHandler) (now : Int) (rest : Str), ∃ data,
        handler.listenOnce now (encodeMessage reply ++ rest) =
          some ⟨handler, rest, some { type := .log, data }, none⟩ ∧
        (data = logContent content ↔ ∀ line ∈ lastLines content, (59 : UInt8) ∉ line)) := by
  let reply := build (str "LOG") [logContent content]
  refine ⟨reply, w.transferred env socket reply, ?_, fun admissible handler now rest => ?_⟩
  · rw [handleMessage_getLog valid command env socket logged nonempty]
    exact World.since_eq (w.log_reply connected env reply)
  · refine ⟨_, listenOnce_log admissible handler now rest, ?_⟩
    rw [splitOn_head_eq_iff, mem_logContent]
    simp only [not_exists, not_and]

/-- `Env.plain` with a log file of this content. -/
def Env.logging (content : Str) : Env := { Env.plain with serverLog := some content }

/-- A log of two lines, the second without a newline of its own, asked for on an open
connection. -/
theorem log_intact_of_two : ∃ (s : System) (reply : Str), s.Reachable ∧
    s.liveLoop 0 = some 5 ∧
    s.world.since ((handleMessage (str "GET_LOG\n") 5).run
      (exec (.logging (str "one\ntwo"))) s.world).2 =
        [.send 5 (some 0) reply (some (reply.length + 4))] ∧
    ∀ (handler : MessageHandler) (now : Int) (rest : Str),
      handler.listenOnce now (encodeMessage reply ++ rest) =
        some ⟨handler, rest, some { type := .log, data := str "one\ntwo\n" }, none⟩ := by
  obtain ⟨s, ran, live, frame⟩ := evaluated (o := System.plainRun [.accept 5])
    (P := fun s => s.liveLoop 0 = some 5 ∧
      s.world.since ((handleMessage (str "GET_LOG\n") 5).run
        (exec (.logging (str "one\ntwo"))) s.world).2 =
          [.send 5 (some 0) (str "LOG;one\ntwo\n\n") (some 17)]) (by decide)
  obtain ⟨reply, taken, sent, received⟩ := log_intact_iff (w := s.world)
    (by decide : (0 : Fd) ≤ 5) (by decide : (parse (str "GET_LOG\n")).isValid = true) (by decide)
    (rfl : (Env.logging (str "one\ntwo")).serverLog = some (str "one\ntwo")) (by decide)
  have same := sent.symm.trans frame
  simp only [List.cons.injEq, Event.send.injEq, and_true, true_and] at same
  obtain ⟨_, rfl, _⟩ := same
  refine ⟨s, _, System.reachable_of_plainRun ran, live, frame, fun handler now rest => ?_⟩
  obtain ⟨data, heard, whole⟩ := received (by decide) handler now rest
  rw [heard, whole.mpr (by decide)]
  rfl

/-- The administrator's text is logged as it was typed, and a client asks for the log on
an open connection. -/
theorem log_not_always_intact : ¬ ∀ (env : Env) (s : System) (i : ConnId) (raw : Str) (socket : Fd)
    (content : Str), s.Reachable → s.liveLoop i = some socket →
    (parse raw).isValid = true → (parse raw).command = str "GET_LOG" →
    env.serverLog = some content → content ≠ [] →
    ∃ reply taken, s.world.since ((handleMessage raw socket).run (exec env) s.world).2 =
        [.send socket (s.world.os.user socket) reply taken] ∧
      (Admissible reply → ∀ (handler : MessageHandler) (now : Int) (rest : Str), ∃ data,
        handler.listenOnce now (encodeMessage reply ++ rest) =
          some ⟨handler, rest, some { type := .log, data }, none⟩ ∧
            data = logContent content) := by
  intro claimed
  let content := str "[INFO] Admin broadcast: hello; world\n"
  obtain ⟨s, ran, live⟩ := evaluated (o := System.plainRun [.accept 5])
    (P := fun s => s.liveLoop 0 = some 5) (by decide)
  have reached := System.reachable_of_plainRun ran
  have valid : (parse (str "GET_LOG\n")).isValid = true := by decide
  have command : (parse (str "GET_LOG\n")).command = str "GET_LOG" := by decide
  have filled : content ≠ [] := by decide
  obtain ⟨reply, taken, sent, received⟩ :=
    claimed (.logging content) s 0 _ 5 content reached live valid command rfl filled
  rw [handleMessage_getLog valid command _ 5 rfl filled,
    World.since_eq (s.world.log_reply (by decide) _ _)] at sent
  simp only [List.cons.injEq, Event.send.injEq, and_true, true_and] at sent
  obtain ⟨rfl, _⟩ := sent
  have admissible : Admissible (build (str "LOG") [logContent content]) := by decide
  obtain ⟨data, heard, whole⟩ := received admissible ⟨5, [], [], 0⟩ 0 []
  rw [listenOnce_log admissible] at heard
  simp only [Option.some.injEq, MessageHandler.Heard.mk.injEq, ServerEventData.mk.injEq, true_and,
    and_true] at heard
  exact absurd ((splitOn_head_eq_iff _).mp (heard.trans whole)) (by decide)

end SocketMessaging
