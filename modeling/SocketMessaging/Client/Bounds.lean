import SocketMessaging.Client.Events
import SocketMessaging.Server.Footprints
import SocketMessaging.Utils.Split

/-! Accesses by position. The functions that make them are written once more, with
each access checked; whatever text comes from the network or the console, no check
fails and the result is that of the model. -/
namespace SocketMessaging
open Prog Transition Utils MessageParser CommandHandler

/-- `pop_back` of a string; `none` is an access out of range, here and below. -/
def popBack (s : Str) : Option Str := if s = [] then none else some s.dropLast

/-- `substr(first)`, and the vector from `begin() + first` to `end()`. -/
def suffixFrom {α : Type} (items : List α) (first : Nat) : Option (List α) :=
  if first ≤ items.length then some (items.drop first) else none

/-- The loop that appends a piece for each of the items from `start` on. -/
def collect (items : List Str) (start : Nat) (piece : Nat → Str → Str) : Option Str :=
  (List.range' start (items.length - start)).foldlM
    (fun text i => items[i]?.map fun item => text ++ piece i item) []

theorem collect_from (items : List Str) (piece : Nat → Str → Str) (count : Nat) {start : Nat}
    (whole : start + count = items.length) (text : Str) :
    (List.range' start count).foldlM
        (fun text i => items[i]?.map fun item => text ++ piece i item) text =
      some (text ++ ((items.drop start).zipIdx start).flatMap fun entry => piece entry.2 entry.1) := by
  induction count generalizing start text with
  | zero =>
    rw [List.drop_eq_nil_of_le (by omega)]
    simp
  | succ count ih =>
    have inside : start < items.length := by omega
    rw [List.range'_succ, List.foldlM_cons, List.getElem?_eq_getElem inside,
      List.drop_eq_getElem_cons inside, List.zipIdx_cons, List.flatMap_cons, ← List.append_assoc]
    exact ih (by omega) _

theorem collect_eq (items : List Str) (start : Nat) (piece : Nat → Str → Str) :
    collect items start piece =
      some (((items.drop start).zipIdx start).flatMap fun entry => piece entry.2 entry.1) := by
  by_cases inside : start ≤ items.length
  · exact collect_from items piece _ (by omega) []
  · rw [collect, List.drop_eq_nil_of_le (by omega), Nat.sub_eq_zero_of_le (by omega)]
    rfl

namespace MessageParser

/-- The message without its last newline; it is not empty here. -/
def cleanedChecked (rawMessage : Str) : Option Str := do
  let last ← rawMessage.getLast?
  if last = 10 then popBack rawMessage else some rawMessage

def parseChecked (rawMessage : Str) : Option ParsedMessage :=
  if rawMessage = [] then some .invalid
  else do
    let cleaned ← cleanedChecked rawMessage
    let parts := split cleaned Constants.messageDelimiter
    if parts = [] then
      return .invalid
    let command ← parts[0]?
    let arguments ← suffixFrom parts 1
    return ⟨command, arguments, true⟩

theorem cleanedChecked_eq {raw : Str} (nonempty : raw ≠ []) :
    cleanedChecked raw = some (if raw.getLast? = some 10 then raw.dropLast else raw) := by
  unfold cleanedChecked
  cases last : raw.getLast? with
  | none => exact absurd (List.getLast?_eq_none_iff.mp last) nonempty
  | some c => by_cases newline : c = 10 <;> simp [popBack, nonempty, newline]

theorem parseChecked_eq (raw : Str) : parseChecked raw = some (parse raw) := by
  unfold parseChecked parse
  by_cases empty : raw = []
  · rw [if_pos empty, if_pos empty]
  · rw [if_neg empty, if_neg empty, cleanedChecked_eq empty]
    simp only [Option.bind_eq_bind, Option.bind_some]
    cases split (if raw.getLast? = some 10 then raw.dropLast else raw) Constants.messageDelimiter with
    | nil => rfl
    | cons command arguments => simp [suffixFrom]

end MessageParser

namespace CommandHandler

def joinUsersChecked (clients : List (Str × Fd)) : Option Str :=
  let userList := clients.flatMap fun entry => entry.1 ++ str ","
  if userList = [] then some userList
  else do
    let last ← userList.getLast?
    if last = 44 then popBack userList else some userList

theorem joinUsersChecked_eq (clients : List (Str × Fd)) :
    joinUsersChecked clients = some (joinUsers clients) := by
  unfold joinUsersChecked joinUsers
  dsimp only
  generalize (clients.flatMap fun entry => entry.1 ++ str ",") = userList
  by_cases empty : userList = []
  · subst empty
    rfl
  · rw [if_neg empty]
    cases last : userList.getLast? with
    | none => exact absurd (List.getLast?_eq_none_iff.mp last) empty
    | some c => by_cases comma : c = 44 <;> simp [popBack, empty, comma]

def logTailChecked (lines : List Str) : Option Str :=
  collect lines (if 50 < lines.length then lines.length - 50 else 0) fun _ line => line ++ [10]

theorem logTailChecked_eq (lines : List Str) : logTailChecked lines = some (logTail lines) := by
  have fields (rest : List Str) (start : Nat) :
      ((rest.zipIdx start).flatMap fun entry => entry.1 ++ [10]) =
        rest.flatMap fun line => line ++ [10] := by
    rw [← List.flatMap_map Prod.fst fun line : Str => line ++ [10], List.zipIdx_map_fst]
  rw [logTailChecked, collect_eq, fields]
  rfl

end CommandHandler

namespace AdminCommandHandler

def joinArgsChecked (first : Nat) (args : List Str) : Option Str :=
  collect args first fun i arg => (if first < i then str " " else []) ++ arg

theorem joinArgsChecked_eq (first : Nat) (args : List Str) :
    joinArgsChecked first args = some (joinArgs first args) := by
  have later (rest : List Str) (start : Nat) (after : first < start) :
      ((rest.zipIdx start).flatMap fun entry => (if first < entry.2 then str " " else []) ++ entry.1) =
        rest.flatMap fun arg => str " " ++ arg := by
    induction rest generalizing start with
    | nil => rfl
    | cons arg rest ih =>
      rw [List.zipIdx_cons, List.flatMap_cons, List.flatMap_cons, if_pos after,
        ih (start + 1) (by omega)]
  rw [joinArgsChecked, collect_eq, joinArgs]
  cases args.drop first with
  | nil => rfl
  | cons arg rest =>
    rw [List.zipIdx_cons, List.flatMap_cons, if_neg (Nat.lt_irrefl first), List.nil_append,
      later rest (first + 1) (Nat.lt_succ_self first), Delimited.intercalate_cons]

/-- The number of words, as the source compares it, wraps to an `int`. -/
def commandLineChecked (typed : Str) : Option Handler :=
  if typed = [] then some (.done ())
  else typed[0]?.bind fun c =>
    if c ≠ 47 then some (.done ())
    else (suffixFrom typed 1).bind fun text =>
      let parts := split text (str " ")
      if parts = [] then some (.done ())
      else parts[0]?.bind fun cmdName =>
        match commands.lookup cmdName with
        | none => some (.done ())
        | some cmd =>
          if ((parts.length : Int) - 1).bmod (2 ^ 32) < cmd.minArgs then some (.done ())
          else some (cmd.handler parts)

theorem disconnectUser_inRange (username reason : Str) :
    (disconnectUser username reason).Only Action.InRange := by
  simp only [disconnectUser, perform_bind, pure_eq, only_act, only_ite, only_done, Action.InRange,
    implies_true, and_self]

/-- What the table asks for is enough for the positions that each command reads. -/
theorem handler_inRange {cmdName : Str} {cmd : AdminCommand} (listed : Listed cmdName cmd)
    {parts : List Str} (enough : cmd.minArgs < parts.length) :
    (cmd.handler parts).Only Action.InRange := by
  cases listed with
  | print => trivial
  | broadcast => exact ⟨trivial, fun clients => sendToAll_only (fun _ => trivial) clients⟩
  | send =>
    change (cmdSend parts).Only _
    rw [cmdSend, nth_of_lt (show 1 < parts.length from Nat.lt_of_succ_lt enough)]
    simp only [done_bind, perform_bind, pure_eq, only_act, only_ite, only_done, Action.InRange,
      implies_true, and_self]
  | kick =>
    change (cmdKick parts).Only _
    rw [cmdKick, nth_of_lt enough, done_bind]
    exact (disconnectUser_inRange _ _).bind fun _ => trivial
  | ban =>
    change (cmdBan parts).Only _
    rw [cmdBan, nth_of_lt enough, done_bind]
    refine (disconnectUser_inRange _ _).bind fun found => ?_
    split
    · exact ⟨trivial, fun _ => trivial⟩
    · trivial
  | unban =>
    change (cmdUnban parts).Only _
    rw [cmdUnban, nth_of_lt enough, done_bind]
    exact ⟨trivial, fun _ => trivial⟩
  | set =>
    change (cmdSet parts).Only _
    rw [cmdSet, nth_of_lt (show 1 < parts.length from Nat.lt_of_succ_lt enough), done_bind,
      nth_of_lt enough, done_bind]
    exact ⟨trivial, fun _ => trivial⟩
  | reset | stop => exact ⟨trivial, fun _ => trivial⟩

end AdminCommandHandler
namespace AdminCommandHandler

theorem bmod_le {size : Int} (nonneg : 0 ≤ size) : size.bmod (2 ^ 32) ≤ size := by
  rw [Int.bmod_def]
  split <;> omega

theorem length_split (text : Str) : (split text (str " ")).length ≤ text.length + 1 := by
  by_cases empty : text = []
  · subst empty
    exact Nat.zero_le 1
  · exact (split_tokens empty (by decide)).length_le (by decide)

/-- The console calls a command only with as many words as it reads, also where the
number of words does not fit an `int`. -/
theorem commandLineChecked_inRange (line : Str) :
    ∃ handler, commandLineChecked line = some handler ∧
    handler.Only Action.InRange ∧ (line.length < 2 ^ 31 → handler = commandLine line) := by
  cases line with
  | nil => exact ⟨.done (), rfl, trivial, fun _ => rfl⟩
  | cons c text =>
    have rest : suffixFrom (c :: text) 1 = some text := if_pos (Nat.le_add_left 1 text.length)
    have read : (c :: text)[0]? = some c := rfl
    have words := length_split text
    unfold commandLineChecked commandLine
    simp only [List.cons_ne_nil, if_false, read, rest, Option.bind_some]
    by_cases other : c ≠ 47
    · simp only [if_pos other]
      exact ⟨.done (), rfl, trivial, fun _ => rfl⟩
    · simp only [if_neg other]
      cases parts : split text (str " ") with
      | nil => exact ⟨.done (), rfl, trivial, fun _ => rfl⟩
      | cons cmdName args =>
        have first : (cmdName :: args)[0]? = some cmdName := rfl
        simp only [List.cons_ne_nil, if_false, first, Option.bind_some]
        cases found : commands.lookup cmdName with
        | none => exact ⟨.done (), rfl, trivial, fun _ => rfl⟩
        | some cmd =>
          rw [parts, List.length_cons] at words
          have listed : Listed cmdName cmd := commands_listed _ (mem_of_lookup found)
          have size : (((cmdName :: args).length : Int) - 1) = args.length := by
            rw [List.length_cons]
            omega
          have below := bmod_le (Int.natCast_nonneg args.length)
          dsimp only
          rw [size]
          by_cases few : (args.length : Int).bmod (2 ^ 32) < cmd.minArgs
          · refine ⟨.done (), if_pos few, trivial, fun short => ?_⟩
            rw [List.length_cons] at short
            have exact_ : (args.length : Int).bmod (2 ^ 32) = args.length :=
              Int.bmod_eq_of_le (by omega) (by omega)
            exact (if_pos (by omega)).symm
          · have enough : cmd.minArgs ≤ args.length := by omega
            refine ⟨cmd.handler (cmdName :: args), if_neg few, ?_, fun _ => ?_⟩
            · exact handler_inRange listed (Nat.lt_succ_of_le enough)
            · exact (if_neg (Nat.not_lt.mpr enough)).symm

end AdminCommandHandler

namespace MessageHandler

def storeMessageChecked (now : Int) (data : ServerEventData) (handler : MessageHandler) :
    Option MessageHandler := do
  let sender ← data.args[0]?
  let subject ← data.args[1]?
  let body ← data.args[2]?
  let timestamp ← data.args[3]?
  let msg : ReceivedMessage :=
    { sender, subject, body
      timestamp := unixStringToTimestamp now timestamp
      receivedAt := now
      isRead := false
      index := handler.messageCounter }
  return { handler with
    unreadMessages := handler.unreadMessages ++ [msg]
    messageCounter := handler.messageCounter + 1 }

end MessageHandler

/-- A message event has the arguments that storing and displaying it read. -/
def ServerEventData.Complete (event : ServerEventData) : Prop :=
  event.type = .message → 4 ≤ event.args.length

namespace MessageHandler

theorem complete_of_parseMessage {raw : Str} {event : ServerEventData}
    (parsed : parseMessage raw = some event) : event.Complete := by
  intro message
  obtain ⟨sender, subject, body, time, same⟩ := args_of_message parsed message
  rw [same]
  exact Nat.le_refl 4

theorem storeMessageChecked_eq {event : ServerEventData} (four : 4 ≤ event.args.length) (now : Int)
    (handler : MessageHandler) :
    storeMessageChecked now event handler = some (handler.storeMessage now event) := by
  obtain ⟨type, data, args⟩ := event
  match args, four with
  | sender :: subject :: body :: time :: _, _ => rfl

/-- What the loop passes on was read from a frame. -/
theorem complete_of_listenOnce {now : Int} {stream : Str} {handler : MessageHandler} {heard : Heard}
    {event : ServerEventData} (listened : handler.listenOnce now stream = some heard)
    (passed : heard.event = some event) : event.Complete := by
  unfold listenOnce at listened
  split at listened
  · cases listened
  · rename_i message rest decoded
    cases parsed : parseMessage message with
    | none =>
      simp only [parsed] at listened
      cases listened
      cases passed
    | some other =>
      have complete := complete_of_parseMessage parsed
      simp only [parsed] at listened
      split at listened
      all_goals
        cases listened
        cases passed
      all_goals exact complete

end MessageHandler

namespace ClientUI

def displayEventChecked (event : ServerEventData) : Option (List Str) :=
  match event.type with
  | .message => do
    let sender ← event.args[0]?
    let subject ← event.args[1]?
    return [sender, subject]
  | .ok | .errorMsg | .log => some [event.data]
  | .users => some (printUserList event.data)
  | .ping => some []

def displayPendingChecked (event : ServerEventData) : Option (List Str) :=
  match event.type with
  | .message => do
    let sender ← event.args[0]?
    let subject ← event.args[1]?
    return [sender, subject]
  | .errorMsg | .log => some [event.data]
  | .users => some (printUserList event.data)
  | .ok | .ping => some []

theorem displayEventChecked_eq {event : ServerEventData} (complete : event.Complete) :
    displayEventChecked event = some (displayEvent event) := by
  obtain ⟨type, data, args⟩ := event
  cases type with
  | message =>
    match args, complete rfl with
    | sender :: subject :: _, _ => rfl
  | _ => rfl

theorem displayPendingChecked_eq {event : ServerEventData} (complete : event.Complete) :
    displayPendingChecked event = some (displayPending event) := by
  obtain ⟨type, data, args⟩ := event
  cases type with
  | message =>
    match args, complete rfl with
    | sender :: subject :: _, _ => rfl
  | _ => rfl

/-- Every event on its way to the display was read from a frame. -/
structure Fed (s : ClientUI) : Prop where
  pending : ∀ event ∈ s.pendingEvents, event.Complete
  called : ∀ {event}, s.listener = .called event → event.Complete
  queueing : ∀ {delivery}, s.listener = .queueing delivery → delivery.event.Complete

theorem Fed.step {s t : ClientUI} {move : Move} (fed : s.Fed) (stepped : s.step move = some t) :
    t.Fed := by
  cases step_cases stepped with
  | @received now heard listened =>
    refine ⟨fed.pending, fun {event} called => ?_, fun {delivery} queueing => ?_⟩
    · cases passed : heard.event with
      | none =>
        rw [passed] at called
        cases called
      | some other =>
        rw [passed] at called
        cases called
        exact MessageHandler.complete_of_listenOnce listened passed
    · cases passed : heard.event with
      | none | some other =>
        rw [passed] at queueing
        cases queueing
  | blocked called =>
    refine ⟨fed.pending, nofun, ?_⟩
    rintro delivery ⟨⟩
    exact fed.called called
  | displayed => exact ⟨fed.pending, nofun, nofun⟩
  | @queued delivery queueing =>
    refine ⟨fun event member => ?_, nofun, nofun⟩
    rcases List.mem_append.mp member with earlier | added
    · exact fed.pending event earlier
    · split at added
      · rw [List.mem_singleton.mp added]
        exact fed.queueing queueing
      · cases added
  | recorded => exact ⟨fed.pending, nofun, nofun⟩
  | shown => exact ⟨nofun, fed.called, fed.queueing⟩
  | found | missed | asked | went => exact ⟨fed.pending, fed.called, fed.queueing⟩

theorem initial_fed (socketFd : Fd) (stream : Str) : (initial socketFd stream).Fed :=
  ⟨nofun, nofun, nofun⟩

theorem Fed.reached {socketFd : Fd} {stream : Str} {s : ClientUI}
    (reached : Reachable ClientUI.step (initial socketFd stream) s) : s.Fed :=
  reached.invariant (initial_fed socketFd stream) fun fed stepped => fed.step stepped

end ClientUI

/-- Whatever a frame or a line of the console contains, and whatever the server and the
client have been through, no handler goes out of range. -/
theorem accesses_inRange :
    (∀ raw, parseChecked raw = some (parse raw)) ∧
    (∀ raw socket, (handleMessage raw socket).Only Action.InRange) ∧
    (∀ clients, joinUsersChecked clients = some (joinUsers clients)) ∧
    (∀ lines, logTailChecked lines = some (logTail lines)) ∧
    (∀ line, ∃ handler, AdminCommandHandler.commandLineChecked line = some handler ∧
      handler.Only Action.InRange ∧
      (line.length < 2 ^ 31 → handler = AdminCommandHandler.commandLine line)) ∧
    (∀ first args, AdminCommandHandler.joinArgsChecked first args =
      some (AdminCommandHandler.joinArgs first args)) ∧
    (∀ raw event, MessageHandler.parseMessage raw = some event → event.type = .message →
      ∀ now (handler : MessageHandler),
        handler.storeMessageChecked now event = some (handler.storeMessage now event)) ∧
    ∀ socketFd stream s, Reachable ClientUI.step (ClientUI.initial socketFd stream) s →
      (∀ event, s.listener = .called event →
        ClientUI.displayEventChecked event = some (ClientUI.displayEvent event)) ∧
      ∀ event ∈ s.pendingEvents,
        ClientUI.displayPendingChecked event = some (ClientUI.displayPending event) := by
  refine ⟨parseChecked_eq, ?_, joinUsersChecked_eq, logTailChecked_eq,
    AdminCommandHandler.commandLineChecked_inRange, AdminCommandHandler.joinArgsChecked_eq, ?_, ?_⟩
  · intro raw socket
    exact (handleMessage_loops raw socket).weaken fun _ => And.right
  · intro raw event parsed message now handler
    have complete := MessageHandler.complete_of_parseMessage parsed
    exact MessageHandler.storeMessageChecked_eq (complete message) now handler
  · intro socketFd stream s reached
    have fed := ClientUI.Fed.reached reached
    constructor
    · intro event called
      exact ClientUI.displayEventChecked_eq (fed.called called)
    · intro event waiting
      exact ClientUI.displayPendingChecked_eq (fed.pending event waiting)

end SocketMessaging
