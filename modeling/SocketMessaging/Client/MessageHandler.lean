import SocketMessaging.Server.State

/-! The client's `MessageHandler`: sending commands, and the loop that listens
to the server and stores the messages it receives. Logging is left out, and so
is the name of the current user, which only the display reads. -/
namespace SocketMessaging
open Utils MessageParser NetworkStream

/-- `sender` is the field `from` of the source. Times count nanoseconds. -/
structure ReceivedMessage where
  sender : Str
  subject : Str
  body : Str
  timestamp : Int
  receivedAt : Int
  isRead : Bool := false
  index : Int := 0
  deriving DecidableEq

/-- `errorMsg` is `ERROR_MSG`. No event has the type `NONE`: it stands for the cleared slot
of the user interface. -/
inductive ServerEvent where
  | message
  | ok
  | errorMsg
  | users
  | log
  | ping
  deriving DecidableEq

structure ServerEventData where
  type : ServerEvent
  data : Str := []
  args : List Str := []
  deriving DecidableEq

structure MessageHandler where
  socketFd : Fd
  unreadMessages : List ReceivedMessage
  readMessages : List ReceivedMessage
  messageCounter : Int
  deriving DecidableEq

namespace MessageHandler

/-- The result and the frame handed to `::send`, if any. `transfer` says how
many bytes `::send` takes, `none` if it fails. -/
def sendCommand (transfer : Str → Option Nat) (command : Str) (handler : MessageHandler) :
    Bool × Option Str :=
  if handler.socketFd < 0 then (false, none)
  else ((transfer (encodeMessage command)).isSome, some command)

/-- `to` is reserved here, so the first argument is called `recipient`. -/
def sendMessage (config : RuntimeConfig) (transfer : Str → Option Nat)
    (recipient subject body : Str) (handler : MessageHandler) : Bool × Option Str :=
  if !isValidUsername config recipient && recipient ≠ str "all" then (false, none)
  else if !isValidSubject config subject then (false, none)
  else handler.sendCommand transfer (build (str "SEND") [recipient, subject, body])

def parseMessage (raw : Str) : Option ServerEventData :=
  let parsed := parse raw
  if !parsed.isValid then none
  else if parsed.command = str "MESSAGE" ∧ 4 ≤ parsed.argCount then
    some { type := .message, args := [parsed.arg 0, parsed.arg 1, parsed.arg 2, parsed.arg 3] }
  else if parsed.command = str "OK" then
    some { type := .ok,
           data := if 0 < parsed.argCount then parsed.arg 0 else str "Operation successful" }
  else if parsed.command = str "ERROR" then
    some { type := .errorMsg,
           data := if 0 < parsed.argCount then parsed.arg 0 else str "Unknown error" }
  else if parsed.command = str "USERS" ∧ 1 ≤ parsed.argCount then
    some { type := .users, data := parsed.arg 0 }
  else if parsed.command = str "LOG" ∧ 1 ≤ parsed.argCount then
    some { type := .log, data := parsed.arg 0 }
  else if parsed.command = str "PING" then some { type := .ping }
  else none

/-- `now` is the system clock, read for `receivedAt` and in place of a timestamp
that is not a number. -/
def storeMessage (now : Int) (data : ServerEventData) (handler : MessageHandler) :
    MessageHandler :=
  let msg : ReceivedMessage :=
    { sender := data.args.getD 0 []
      subject := data.args.getD 1 []
      body := data.args.getD 2 []
      timestamp := unixStringToTimestamp now (data.args.getD 3 [])
      receivedAt := now
      isRead := false
      index := handler.messageCounter }
  { handler with
    unreadMessages := handler.unreadMessages ++ [msg]
    messageCounter := handler.messageCounter + 1 }

def getUnreadMessages (handler : MessageHandler) : List ReceivedMessage := handler.unreadMessages

/-- The message copied to `out`, `none` if it was not found, and the lists
afterwards. The copy is taken before the message is marked as read. -/
def readMessageByIndex (index : Int) (handler : MessageHandler) :
    Option ReceivedMessage × MessageHandler :=
  match handler.unreadMessages.find? fun msg => msg.index = index with
  | some msg =>
    (some msg, { handler with
      unreadMessages := handler.unreadMessages.eraseP fun msg => msg.index = index
      readMessages := handler.readMessages ++ [{ msg with isRead := true }] })
  | none => (handler.readMessages.find? fun msg => msg.index = index, handler)

/-- A subject that begins like a reply is kept. -/
def replySubject (subject : Str) : Str :=
  if subject.take 4 = str "Re: " then subject else str "Re: " ++ subject

def replyToMessage (config : RuntimeConfig) (transfer : Str → Option Nat) (originalIndex : Int)
    (body : Str) (handler : MessageHandler) : Bool × Option Str :=
  let found := (handler.unreadMessages.find? fun msg => msg.index = originalIndex).or
    (handler.readMessages.find? fun msg => msg.index = originalIndex)
  match found with
  | none => (false, none)
  | some original =>
    handler.sendMessage config transfer original.sender (replySubject original.subject) body

/-- What one iteration of `listen` leaves: the handler, the bytes not yet read,
the event passed to the callback and the reply sent to the server. -/
structure Heard where
  handler : MessageHandler
  unread : Str
  event : Option ServerEventData
  reply : Option Str

/-- One iteration of `listen` on the bytes still to come from the server; `none`
where the loop ends because receiving failed. -/
def listenOnce (now : Int) (stream : Str) (handler : MessageHandler) : Option Heard :=
  match decodeMessage stream with
  | none => none
  | some (message, rest) =>
    match parseMessage message with
    | none => some ⟨handler, rest, none, none⟩
    | some event =>
      match event.type with
      | .message => some ⟨handler.storeMessage now event, rest, some event, none⟩
      | .ping => some ⟨handler, rest, none, some (build (str "PONG") [])⟩
      | _ => some ⟨handler, rest, some event, none⟩

/-- The next iteration of `listen` appends one message, with these texts. -/
def Receives (now : Int) (stream : Str) (handler : MessageHandler) (sender subject body : Str) :
    Prop :=
  ∃ heard msg, handler.listenOnce now stream = some heard ∧
    heard.handler.unreadMessages = handler.unreadMessages ++ [msg] ∧
    msg.sender = sender ∧ msg.subject = subject ∧ msg.body = body

/-- A valid recipient, apart from the reserved word, is a name. -/
theorem sendMessage_eq_some {config : RuntimeConfig} {transfer : Str → Option Nat}
    {recipient subject body raw : Str} {handler : MessageHandler} (direct : recipient ≠ str "all")
    (sent : handler.sendMessage config transfer recipient subject body = (true, some raw)) :
    NameText recipient ∧ raw = build (str "SEND") [recipient, subject, body] := by
  unfold sendMessage sendCommand at sent
  split_ifs at sent with invalid short closed
  all_goals simp only [Prod.mk.injEq, Bool.false_eq_true, false_and] at sent
  have valid : isValidUsername config recipient = true := by simpa [direct] using invalid
  exact ⟨(isValidUsername_iff.mp valid).1, (Option.some.inj sent.2).symm⟩

/-- A message event carries four arguments. -/
theorem args_of_message {raw : Str} {event : ServerEventData}
    (parsed : parseMessage raw = some event) (message : event.type = .message) :
    ∃ sender subject body time, event.args = [sender, subject, body, time] := by
  unfold parseMessage at parsed
  dsimp only at parsed
  split_ifs at parsed
  all_goals
    obtain rfl := Option.some.inj parsed
    first
      | exact ⟨_, _, _, _, rfl⟩
      | cases message

theorem parse_message {sender subject body time : Str}
    (free : ∀ field ∈ [sender, subject, body, time], (59 : UInt8) ∉ field) :
    parse (build (str "MESSAGE") [sender, subject, body, time]) =
      ⟨str "MESSAGE", [sender, subject, body, time], true⟩ := by
  apply parse_build_free (.inl (List.cons_ne_nil _ _))
  intro field member
  rcases List.mem_cons.mp member with rfl | listed
  · decide
  · exact free field listed

/-- A MESSAGE whose fields are free of the delimiter is read as it was built. -/
theorem parseMessage_build {sender subject body time : Str}
    (free : ∀ field ∈ [sender, subject, body, time], (59 : UInt8) ∉ field) :
    parseMessage (build (str "MESSAGE") [sender, subject, body, time]) =
      some { type := .message, args := [sender, subject, body, time] } := by
  rw [parseMessage, parse_message free]
  rfl

/-- What is stored from a MESSAGE whose fields are free of the delimiter. -/
theorem receives_message_iff {now : Int} {rest sender subject body time name title text : Str}
    {handler : MessageHandler} (free : ∀ field ∈ [sender, subject, body, time], (59 : UInt8) ∉ field)
    (representable : (build (str "MESSAGE") [sender, subject, body, time]).length < 2 ^ 32) :
    handler.Receives now
      (encodeMessage (build (str "MESSAGE") [sender, subject, body, time]) ++ rest)
      name title text ↔
      Admissible (build (str "MESSAGE") [sender, subject, body, time]) ∧
        sender = name ∧ subject = title ∧ body = text := by
  let frame := build (str "MESSAGE") [sender, subject, body, time]
  have parsed : parseMessage frame = some { type := .message, args := [sender, subject, body, time] } :=
    parseMessage_build free
  have decoded : decodeMessage (encodeMessage frame ++ rest) = _ := decode_encode representable
  unfold Receives listenOnce
  rw [decoded]
  by_cases fits : Admissible frame
  · rw [if_pos fits]
    dsimp only
    rw [parsed]
    constructor
    · rintro ⟨heard, msg, same, stored, rfl, rfl, rfl⟩
      cases same
      obtain rfl := (List.cons.inj (List.append_cancel_left stored)).1
      exact ⟨fits, rfl, rfl, rfl⟩
    · rintro ⟨_, rfl, rfl, rfl⟩
      exact ⟨_, _, rfl, rfl, rfl, rfl, rfl⟩
  · rw [if_neg fits]
    constructor
    · rintro ⟨_, _, none, _⟩
      cases none
    · exact fun fits' => absurd fits'.1 fits

end MessageHandler
end SocketMessaging
