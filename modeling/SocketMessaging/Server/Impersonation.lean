import SocketMessaging.Client.Inbox
import SocketMessaging.Server.Names
import SocketMessaging.Server.Untouched

/-! Whose messages a client takes for messages from SERVER. The name is not
reserved, so besides the administrator's announcements these are the messages of
a user who has registered it, and no others. -/
namespace SocketMessaging
open Prog Transition Utils MessageParser Constants

/-- A client reads the frame as a message from this name. -/
def ReadsFrom (frame name : Str) : Prop :=
  ∃ event, MessageHandler.parseMessage frame = some event ∧ event.type = .message ∧
    event.args.head? = some name

section Reading
variable {frame name : Str}

theorem ReadsFrom.fields (reads : ReadsFrom frame name) :
    ∃ arguments, parse frame = ⟨str "MESSAGE", arguments, true⟩ ∧ arguments.getD 0 [] = name := by
  obtain ⟨event, parsed, message, first⟩ := reads
  rcases Inbox.parseMessage_cases frame with ⟨texts, time, fields, read⟩ | ⟨_, apart⟩
  · rw [read] at parsed
    obtain rfl := Option.some.inj parsed
    obtain ⟨⟨valid, command, _⟩, same⟩ := Option.ite_none_right_eq_some.mp fields
    obtain rfl := Option.some.inj same
    exact ⟨(parse frame).arguments, by rw [← command, ← valid], Option.some.inj first⟩
  · exact absurd message (apart event parsed)

theorem ReadsFrom.not_plain (reads : ReadsFrom frame name) : ¬ Plain frame := by
  obtain ⟨arguments, parsed, _⟩ := reads.fields
  obtain ⟨cleaned, whole, pieces⟩ := parse_eq parsed
  have built : build (str "MESSAGE") arguments = cleaned ++ [10] := build_of_splitOn pieces
  have starts : cleaned = str "MESSAGE" ++ arguments.flatMap (fun arg => messageDelimiter ++ arg) :=
    (List.append_cancel_right built).symm
  have taken : frame.take 4 = str "MESS" := by
    rw [whole, starts]
    split <;> rfl
  exact fun plain => plain taken

/-- A relayed message is read as one from its sender. -/
theorem ReadsFrom.sender {message : Message} (valid : Username message.sender)
    (reads : ReadsFrom (Dispatcher.formattedMessage message) name) : message.sender = name := by
  obtain ⟨arguments, parsed, first⟩ := reads.fields
  have command : str "MESSAGE" ≠ [] := List.cons_ne_nil _ _
  rw [Dispatcher.formattedMessage, parse_build (.inl command)] at parsed
  simp only [List.flatMap_cons, List.splitOn_eq_singleton valid.text.no_delimiter,
    List.splitOn_eq_singleton (by decide : (59 : UInt8) ∉ str "MESSAGE"),
    List.cons_append, List.nil_append, ParsedMessage.mk.injEq] at parsed
  rw [← parsed.2.1] at first
  exact first

end Reading

/-- What an action writes is as the program that performs it may speak. -/
theorem Action.Permitted.speaks {N spoken : Str → Prop} {w : World} {β : Type} {action : Action β}
    (permitted : action.Permitted N spoken) {socket : Fd} {conn : Option ConnId} {frame : Str}
    {taken : Option Nat} (logged : action.Logs w (.send socket conn frame taken)) :
    spoken frame ∨ Plain frame := by
  cases action with
  | send number message =>
    obtain ⟨_, same⟩ := logged
    cases same
    exact .inl permitted
  | pingClients =>
    obtain ⟨_, _, _, same⟩ := logged
    cases same
    exact .inr (show str "PING" ≠ str "MESS" by decide)
  | stop =>
    obtain ⟨_, _, same⟩ := logged
    cases same
  | registerClient | unregisterClient | close => cases logged
  | _ => exact logged.elim

namespace Threads
variable {s after : Threads}

theorem log_subset {ok : Threads → Env × Move → Prop} {labels : List (Env × Move)}
    (run : Run step ok s labels after) : s.world.os.log ⊆ after.world.os.log := by
  refine run.related (R := fun s after => s.world.os.log ⊆ after.world.os.log)
    (fun _ => List.Subset.refl _) List.Subset.trans fun _ stepped => ?_
  obtain ⟨events, grown, _⟩ := step_log (step_cases stepped).2
  exact grown ▸ List.subset_append_left _ _

/-- A name that is registered in this step is logged. -/
theorem registers_logged {label : Env × Move} (stepped : step s label = some after) :
    Registers (fun name => ∃ conn, .register name conn ∈ after.world.os.log) s label := by
  obtain ⟨env, move⟩ := label
  obtain ⟨_, stepped⟩ := step_cases stepped
  intro username registers
  have logged : ∀ {β : Type} {action : Action β} {next : β → Handler},
      registering (.act action next) = some username →
      ∃ conn, .register username conn ∈ (exec env action s.world).2.os.log := by
    intro β action next registers
    cases action with
    | registerClient name socket =>
      cases registers
      exact ⟨_, List.mem_append_right _ (List.mem_singleton_self _)⟩
    | _ => cases registers
  cases stepped with
  | perform present =>
    rw [advanced_of_worker present] at registers
    exact logged registers
  | performTask present =>
    rw [advanced_of_task present] at registers
    exact logged registers
  | finish present =>
    rw [advanced_of_worker present] at registers
    cases registers
  | finishTask present =>
    rw [advanced_of_task present] at registers
    cases registers
  | accept | receive | receiveFailure | start => cases registers

/-- Whatever a run registers is in the log at its end. -/
theorem run_registers {labels : List (Env × Move)} {ok : Threads → Env × Move → Prop}
    (run : Run step ok s labels after) : Run step (fun s label => ok s label ∧
      Registers (fun name => ∃ conn, .register name conn ∈ after.world.os.log) s label)
      s labels after := by
  induction run with
  | refl s => exact .refl s
  | next admitted stepped rest ih =>
    refine .next ⟨admitted, fun username registers => ?_⟩ stepped ih
    obtain ⟨conn, logged⟩ := registers_logged stepped username registers
    exact ⟨conn, log_subset rest logged⟩

/-- The task was started in one of these moves. -/
def StartedIn (moves : List (Env × Move)) (task : Task) : Prop := ∃ env, (env, .start task) ∈ moves

/-- A valid name that was registered before. -/
def Registered (s : Threads) (name : Str) : Prop :=
  Username name ∧ ∃ conn, .register name conn ∈ s.world.os.log

theorem reached_named {banlist : Option Str} {moves : List (Env × Move)}
    (reached : Run step Free (initial banlist) moves s) : s.Named s.Registered (StartedIn moves) := by
  refine (run_registers reached.members).invariant ?_ (initial_named _ _ banlist)
  intro _ label _ named ⟨⟨_, listed⟩, logged⟩ stepped
  refine step_named named (fun username registers => ?_) ?_ stepped
  · exact ⟨named.registers label username registers, logged username registers⟩
  · intro task starts
    exact ⟨label.1, starts ▸ listed⟩

/-- Everything but what the tasks say is no MESSAGE. -/
theorem step_speaks {N : Str → Prop} {started : Task → Prop} (named : s.Named N started) {env : Env}
    {move : Move} (stepped : step s (env, move) = some after) {socket : Fd} {conn : Option ConnId}
    {frame : Str} {taken : Option Nat}
    (written : .send socket conn frame taken ∈ s.world.since after.world) :
    Plain frame ∨ ∃ task, started task ∧ task.program.Continues (s.advanced move) ∧
      task.Speaks N frame := by
  obtain ⟨events, grown, logs⟩ := step_log (step_cases stepped).2
  obtain ⟨_, action, next, advances, logged⟩ := logs _ (World.since_eq grown ▸ written)
  rcases performer advances with ⟨i, worker, _, found, rest⟩ | ⟨k, _, found⟩
  · have names := named.workers found
    rw [rest] at names
    exact .inl ((names.1.speaks logged).elim id id)
  · obtain ⟨task, begun, continues, names⟩ := named.tasks _ (List.mem_of_getElem? found)
    rcases names.1.speaks logged with speaks | plain
    · exact .inr ⟨task, begun, advances ▸ continues, speaks⟩
    · exact .inl plain

/-- A frame that a client reads as a message from SERVER was written by a
`/broadcast` or a `/send` of the administrator, or it is the dispatcher's frame
of a message that was queued for a user who had registered that name. -/
theorem server_frames_explained {banlist : Option Str} {moves : List (Env × Move)}
    (reached : Run step Free (initial banlist) moves s) {env : Env} {move : Move}
    (stepped : step s (env, move) = some after) {socket : Fd} {conn : Option ConnId} {frame : Str}
    {taken : Option Nat} (written : .send socket conn frame taken ∈ s.world.since after.world)
    (reads : ReadsFrom frame (str "SERVER")) :
    (∃ line env, (env, .start (.admin line)) ∈ moves ∧ AdminCommandHandler.Announces line ∧
      (AdminCommandHandler.commandLine line).Continues (s.advanced move)) ∨
    (Dispatcher.runOnce.Continues (s.advanced move) ∧
      (∃ queued : Message, queued.sender = str "SERVER" ∧ frame = Dispatcher.formattedMessage queued) ∧
      ∃ conn, .register (str "SERVER") conn ∈ s.world.os.log) := by
  rcases step_speaks (reached_named reached) stepped written with plain | ⟨task, begun, continues, speaks⟩
  · exact absurd plain reads.not_plain
  · obtain ⟨env, listed⟩ := begun
    cases task with
    | dispatch =>
      right
      rcases speaks with plain | ⟨queued, ⟨valid, known⟩, same⟩
      · exact absurd plain reads.not_plain
      · subst same
        have sender := reads.sender valid
        exact ⟨continues, ⟨queued, sender, rfl⟩, sender ▸ known⟩
    | admin line =>
      left
      rcases speaks with plain | ⟨announces, _⟩
      · exact absurd plain reads.not_plain
      · exact ⟨line, env, listed, announces, continues⟩
    | heartbeat | checkTimeouts => exact absurd speaks reads.not_plain

/-- The administrator writes to ann. -/
theorem server_frames_explained_of_send : ∃ (moves : List (Env × Move)) (s after : Threads)
    (frame : Str), Run step Free (initial none) moves s ∧
    step s (.plain, .advanceTask 0) = some after ∧ ReadsFrom frame (str "SERVER") ∧
    ((∃ line env, (env, .start (.admin line)) ∈ moves ∧ AdminCommandHandler.Announces line ∧
      (AdminCommandHandler.commandLine line).Continues (s.advanced (.advanceTask 0))) ∨
    (Dispatcher.runOnce.Continues (s.advanced (.advanceTask 0)) ∧
      (∃ queued : Message, queued.sender = str "SERVER" ∧ frame = Dispatcher.formattedMessage queued) ∧
      ∃ conn, .register (str "SERVER") conn ∈ s.world.os.log)) := by
  let moves := plainMoves (annConnects ++ [.start (.admin (str "/send ann hi")), .advanceTask 0])
  let frame := AdminCommandHandler.announcement (str "Private Message") (str "hi")
  obtain ⟨s, ran, more⟩ := evaluated (o := execute step (initial none) moves)
    (P := fun s => ((step s (.plain, .advanceTask 0)).any fun after =>
      .send 5 (some 0) frame (some (NetworkStream.encodeMessage frame).length) ∈
        s.world.since after.world) = true) (by decide)
  obtain ⟨after, stepped, written⟩ := evaluated more
  have reads : ReadsFrom frame (str "SERVER") := ⟨_, rfl, rfl, rfl⟩
  have reached := execute_run moves ran
  exact ⟨moves, s, after, frame, reached, stepped, reads,
    server_frames_explained reached stepped written reads⟩

/-- A client logs in as SERVER and writes to ann. -/
theorem server_frames_not_always_announced : ¬ ∀ (banlist : Option Str) (moves : List (Env × Move))
    (s after : Threads) (env : Env) (move : Move) (socket : Fd) (conn : Option ConnId) (frame : Str)
    (taken : Option Nat), Run step Free (initial banlist) moves s →
    step s (env, move) = some after → .send socket conn frame taken ∈ s.world.since after.world →
    ReadsFrom frame (str "SERVER") → ∃ line env, (env, .start (.admin line)) ∈ moves ∧
      AdminCommandHandler.Announces line ∧
      (AdminCommandHandler.commandLine line).Continues (s.advanced move) := by
  intro claimed
  let moves := plainMoves (annConnects ++ [.accept 6, .receive 1 (str "CONNECT;SERVER")] ++
    List.replicate 6 (.advance 1) ++ [.receive 1 (str "SEND;ann;Hi;obey")] ++
    List.replicate 8 (.advance 1) ++ [.start .dispatch, .advanceTask 0, .advanceTask 0])
  let frame := Dispatcher.formattedMessage ⟨str "SERVER", str "ann", str "Hi", str "obey", 0⟩
  obtain ⟨s, ran, more⟩ := evaluated (o := execute step (initial none) moves)
    (P := fun s => ((step s (.plain, .advanceTask 0)).any fun after =>
      .send 5 (some 0) frame (some (NetworkStream.encodeMessage frame).length) ∈
        s.world.since after.world) = true) (by decide)
  obtain ⟨after, stepped, written⟩ := evaluated more
  obtain ⟨line, env, listed, _⟩ := claimed none moves s after _ _ _ _ _ _ (execute_run moves ran)
    stepped written ⟨_, rfl, rfl, rfl⟩
  obtain ⟨move, started, same⟩ := List.mem_map.mp listed
  have command : move = .start (.admin line) := congrArg Prod.snd same
  rw [command] at started
  simp [annConnects] at started

end Threads
end SocketMessaging
