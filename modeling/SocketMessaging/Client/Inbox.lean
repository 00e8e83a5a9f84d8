import SocketMessaging.Client.MessageHandler
import SocketMessaging.Library.Runs

/-! The messages a client has received. The listening thread appends to the unread
messages while the user reads by index, which moves a message to those already
read, so each message received is in exactly one of the two lists. -/
namespace SocketMessaging
open Transition MessageParser NetworkStream

/-- What a message is about, apart from its times. -/
structure Texts where
  sender : Str
  subject : Str
  body : Str
  deriving DecidableEq

def ReceivedMessage.texts (msg : ReceivedMessage) : Texts := ⟨msg.sender, msg.subject, msg.body⟩

/-- The texts of a frame that is a well-formed MESSAGE. -/
def messageTexts (frame : Str) : Option Texts :=
  let parsed := parse frame
  if parsed.isValid ∧ parsed.command = str "MESSAGE" ∧ 4 ≤ parsed.argCount then
    some ⟨parsed.arg 0, parsed.arg 1, parsed.arg 2⟩
  else none

/-- A client that listens: its handler, the bytes still to come from the server,
and the frames received so far. -/
structure Inbox where
  handler : MessageHandler
  stream : Str
  received : List Str

namespace Inbox

/-- Each call holds the lock on the messages for as long as it uses them. -/
inductive Call where
  | listen (now : Int)
  | getUnreadMessages
  | readMessageByIndex (index : Int)
  | replyToMessage (config : RuntimeConfig) (transfer : Str → Option Nat) (originalIndex : Int)
      (body : Str)

/-- `listen` takes one frame; it is not enabled once receiving has failed. -/
def step (s : Inbox) : Call → Option Inbox
  | .listen now =>
    match decodeMessage s.stream, s.handler.listenOnce now s.stream with
    | some (frame, _), some heard => some ⟨heard.handler, heard.unread, s.received ++ [frame]⟩
    | _, _ => none
  | .getUnreadMessages => some s
  | .readMessageByIndex index => some { s with handler := (s.handler.readMessageByIndex index).2 }
  | .replyToMessage _ _ _ _ => some s

/-- A new handler on this socket, and what the server is going to send. -/
def initial (socketFd : Fd) (stream : Str) : Inbox := ⟨⟨socketFd, [], [], 0⟩, stream, []⟩

/-- The texts of the well-formed MESSAGE frames received, in their order. -/
def texts (s : Inbox) : List Texts := s.received.filterMap messageTexts

/-- What an enabled call does. -/
inductive Stepped (s : Inbox) : Call → Inbox → Prop where
  | stored {now : Int} {frame rest : Str} {msg : ReceivedMessage} :
      messageTexts frame = some msg.texts → msg.isRead = false →
      msg.index = s.handler.messageCounter →
      Stepped s (.listen now)
        { handler := { s.handler with
            unreadMessages := s.handler.unreadMessages ++ [msg]
            messageCounter := s.handler.messageCounter + 1 }
          stream := rest
          received := s.received ++ [frame] }
  | ignored {now : Int} {frame rest : Str} : messageTexts frame = none →
      Stepped s (.listen now) ⟨s.handler, rest, s.received ++ [frame]⟩
  | read {index : Int} : Stepped s (.readMessageByIndex index)
      { s with handler := (s.handler.readMessageByIndex index).2 }
  | unchanged {call : Call} : Stepped s call s

/-- The client's reader recognizes exactly the well-formed MESSAGE frames. -/
theorem parseMessage_cases (frame : Str) :
    (∃ texts time, messageTexts frame = some texts ∧ MessageHandler.parseMessage frame =
      some { type := .message, args := [texts.sender, texts.subject, texts.body, time] }) ∨
    (messageTexts frame = none ∧
      ∀ event, MessageHandler.parseMessage frame = some event → event.type ≠ .message) := by
  unfold messageTexts MessageHandler.parseMessage
  by_cases valid : (parse frame).isValid = true
  case neg => simp [valid]
  by_cases message : (parse frame).command = str "MESSAGE" ∧ 4 ≤ (parse frame).argCount
  · left
    simp [valid, message]
  · right
    simp only [valid, message, Bool.not_true, Bool.false_eq_true, if_false, and_false, true_and]
    intro event
    split_ifs
    all_goals
      intro same
      cases same
    all_goals exact ServerEvent.noConfusion

theorem step_cases {s after : Inbox} {call : Call} (stepped : step s call = some after) :
    Stepped s call after := by
  cases call with
  | listen now =>
    cases decoded : decodeMessage s.stream with
    | none => simp [step, decoded] at stepped
    | some found =>
      obtain ⟨frame, rest⟩ := found
      simp only [step, decoded, MessageHandler.listenOnce] at stepped
      rcases parseMessage_cases frame with ⟨texts, time, fields, parsed⟩ | ⟨other, apart⟩
      · simp only [parsed] at stepped
        cases stepped
        exact .stored fields rfl rfl
      · cases parsed : MessageHandler.parseMessage frame with
        | none =>
          simp only [parsed] at stepped
          cases stepped
          exact .ignored other
        | some event =>
          obtain ⟨type, data, args⟩ := event
          simp only [parsed] at stepped
          cases type with
          | message => exact absurd rfl (apart _ parsed)
          | _ =>
            cases stepped
            exact .ignored other
  | getUnreadMessages => exact Option.some.inj stepped ▸ .unchanged
  | readMessageByIndex index => exact Option.some.inj stepped ▸ .read
  | replyToMessage => exact Option.some.inj stepped ▸ .unchanged

/-- Every message received is in one of the two lists, under its own index. -/
structure LossFree (s : Inbox) : Prop where
  counter : s.handler.messageCounter = s.texts.length
  indices : ((s.handler.unreadMessages ++ s.handler.readMessages).map ReceivedMessage.index).Perm
    ((List.range s.texts.length).map Int.ofNat)
  texts : ∀ msg ∈ s.handler.unreadMessages ++ s.handler.readMessages,
    s.texts[msg.index.toNat]? = some msg.texts
  ordered : s.handler.unreadMessages.Pairwise fun earlier later => earlier.index < later.index
  unread : ∀ msg ∈ s.handler.unreadMessages, msg.isRead = false
  read : ∀ msg ∈ s.handler.readMessages, msg.isRead = true

/-- An index that is among the unread messages is there once. -/
theorem readMessageByIndex_split {handler : MessageHandler} {msg : ReceivedMessage}
    (ordered : handler.unreadMessages.Pairwise fun earlier later => earlier.index < later.index)
    (member : msg ∈ handler.unreadMessages) :
    ∃ before after, handler.unreadMessages = before ++ msg :: after ∧
      (∀ other ∈ before ++ after, other.index ≠ msg.index) ∧
      handler.readMessageByIndex msg.index = (some msg, { handler with
        unreadMessages := before ++ after
        readMessages := handler.readMessages ++ [{ msg with isRead := true }] }) := by
  obtain ⟨before, after, split⟩ := List.append_of_mem member
  rw [split, List.pairwise_append, List.pairwise_cons] at ordered
  obtain ⟨_, ⟨later, _⟩, earlier⟩ := ordered
  have first : ∀ other ∈ before, ¬ decide (other.index = msg.index) = true := fun other listed =>
    by simpa using Int.ne_of_lt (earlier other listed msg List.mem_cons_self)
  refine ⟨before, after, split, fun other listed => ?_, ?_⟩
  · rcases List.mem_append.mp listed with old | new
    · exact Int.ne_of_lt (earlier other old msg List.mem_cons_self)
    · exact Int.ne_of_gt (later other new)
  · have found : handler.unreadMessages.find? (fun other => other.index = msg.index) = some msg := by
      rw [split, List.find?_append, List.find?_eq_none.mpr first, Option.none_or]
      simp
    have left : handler.unreadMessages.eraseP (fun other => other.index = msg.index) =
        before ++ after := by
      rw [split, List.eraseP_append_right _ first, List.eraseP_cons_of_pos (by simp)]
    simp only [MessageHandler.readMessageByIndex, found, left]

theorem readMessageByIndex_of_not_unread {handler : MessageHandler} {index : Int}
    (absent : ∀ msg ∈ handler.unreadMessages, msg.index ≠ index) :
    handler.readMessageByIndex index =
      (handler.readMessages.find? fun msg => msg.index = index, handler) := by
  have none : handler.unreadMessages.find? (fun msg => msg.index = index) = none :=
    List.find?_eq_none.mpr fun msg member => by simpa using absent msg member
  simp only [MessageHandler.readMessageByIndex, none]

variable {s after : Inbox} {call : Call}

/-- An index is in use exactly if so many messages have been received. -/
theorem LossFree.mem_indices (held : s.LossFree) {index : Int} :
    (∃ msg ∈ s.handler.unreadMessages ++ s.handler.readMessages, msg.index = index) ↔
      0 ≤ index ∧ index < s.texts.length := by
  have member : index ∈ (s.handler.unreadMessages ++ s.handler.readMessages).map
      ReceivedMessage.index ↔ index ∈ (List.range s.texts.length).map Int.ofNat :=
    held.indices.mem_iff
  rw [List.mem_map, List.mem_map] at member
  rw [member]
  constructor
  · rintro ⟨i, listed, rfl⟩
    have bound := List.mem_range.mp listed
    exact ⟨Int.natCast_nonneg i, Int.ofNat_lt.mpr bound⟩
  · rintro ⟨nonneg, bound⟩
    refine ⟨index.toNat, List.mem_range.mpr (by omega), Int.toNat_of_nonneg nonneg⟩

theorem texts_append (received : List Str) (frame : Str) :
    (received ++ [frame]).filterMap messageTexts =
      received.filterMap messageTexts ++ (messageTexts frame).toList := by
  rw [List.filterMap_append, List.filterMap_cons, List.filterMap_nil]
  cases messageTexts frame <;> rfl

/-- A new message gets the next index. -/
theorem LossFree.stored (held : s.LossFree) {frame rest : Str} {msg : ReceivedMessage}
    (fields : messageTexts frame = some msg.texts) (fresh : msg.isRead = false)
    (number : msg.index = s.handler.messageCounter) :
    LossFree ⟨{ s.handler with
      unreadMessages := s.handler.unreadMessages ++ [msg]
      messageCounter := s.handler.messageCounter + 1 }, rest, s.received ++ [frame]⟩ := by
  have grown : Inbox.texts ⟨{ s.handler with
      unreadMessages := s.handler.unreadMessages ++ [msg]
      messageCounter := s.handler.messageCounter + 1 }, rest, s.received ++ [frame]⟩ =
      s.texts ++ [msg.texts] := by
    rw [Inbox.texts, texts_append, fields]
    rfl
  have counted : msg.index = (s.texts.length : Int) := number.trans held.counter
  have below : ∀ {other}, other ∈ s.handler.unreadMessages ++ s.handler.readMessages →
      other.index < msg.index := fun {other} listed =>
    counted ▸ (held.mem_indices.mp ⟨other, listed, rfl⟩).2
  constructor
  case counter =>
    rw [grown, List.length_append, Int.natCast_add]
    exact congrArg (· + 1) held.counter
  case indices =>
    have range : (List.range (s.texts.length + 1)).map Int.ofNat =
        (List.range s.texts.length).map Int.ofNat ++ [msg.index] := by
      rw [List.range_succ, List.map_append, List.map_singleton, counted]
      rfl
    have moved : (s.handler.unreadMessages ++ [msg] ++ s.handler.readMessages).Perm
        (s.handler.unreadMessages ++ s.handler.readMessages ++ [msg]) := by
      rw [List.append_assoc, List.append_assoc]
      exact List.perm_append_comm.append_left _
    rw [grown, List.length_append, List.length_singleton, range]
    refine (moved.map _).trans ?_
    rw [List.map_append, List.map_singleton]
    exact held.indices.append_right _
  case texts =>
    intro other listed
    rw [grown]
    have either : other ∈ s.handler.unreadMessages ++ s.handler.readMessages ∨ other = msg := by
      simp only [List.mem_append, List.mem_singleton] at listed ⊢
      tauto
    rcases either with old | rfl
    · have inside := (List.getElem?_eq_some_iff.mp (held.texts other old)).1
      rw [List.getElem?_append_left inside]
      exact held.texts other old
    · rw [counted, Int.toNat_natCast, List.getElem?_concat_length]
  case ordered =>
    refine List.pairwise_append.mpr ⟨held.ordered, List.pairwise_singleton _ _, ?_⟩
    intro other listed last same
    rw [List.mem_singleton.mp same]
    exact below (List.mem_append_left _ listed)
  case unread =>
    intro other listed
    rcases List.mem_append.mp listed with old | new
    · exact held.unread other old
    · exact List.mem_singleton.mp new ▸ fresh
  case read => exact held.read

theorem LossFree.ignored (held : s.LossFree) {frame rest : Str} (other : messageTexts frame = none) :
    LossFree ⟨s.handler, rest, s.received ++ [frame]⟩ := by
  have same : Inbox.texts ⟨s.handler, rest, s.received ++ [frame]⟩ = s.texts := by
    rw [Inbox.texts, texts_append, other]
    exact List.append_nil _
  have counted := held.counter
  have indices := held.indices
  have texts := held.texts
  rw [← same] at counted indices texts
  exact ⟨counted, indices, texts, held.ordered, held.unread, held.read⟩

/-- A message that is read moves to the other list, and keeps its index. -/
theorem LossFree.moved (held : s.LossFree) (index : Int) :
    LossFree { s with handler := (s.handler.readMessageByIndex index).2 } := by
  by_cases present : ∃ msg ∈ s.handler.unreadMessages, msg.index = index
  case neg =>
    have absent : ∀ msg ∈ s.handler.unreadMessages, msg.index ≠ index := by
      intro msg member same
      exact present ⟨msg, member, same⟩
    rw [readMessageByIndex_of_not_unread absent]
    exact held
  obtain ⟨msg, member, rfl⟩ := present
  obtain ⟨before, later, split, _, moved⟩ := readMessageByIndex_split held.ordered member
  rw [moved]
  have rearranged : (before ++ later ++ (s.handler.readMessages ++ [msg])).Perm
      (s.handler.unreadMessages ++ s.handler.readMessages) := by
    rw [split, ← List.append_assoc, List.append_assoc before (msg :: later), List.cons_append]
    apply List.perm_append_comm.trans
    rw [List.singleton_append, List.append_assoc]
    exact List.perm_middle.symm
  constructor
  case indices =>
    refine List.Perm.trans ?_ held.indices
    have indices := rearranged.map ReceivedMessage.index
    simpa only [List.map_append, List.map_cons, List.map_nil] using indices
  case texts =>
    intro other listed
    have either : other = { msg with isRead := true } ∨
        other ∈ s.handler.unreadMessages ++ s.handler.readMessages := by
      simp only [split, List.mem_append, List.mem_cons, List.not_mem_nil, or_false] at listed ⊢
      tauto
    rcases either with rfl | old
    · exact held.texts msg (List.mem_append_left _ member)
    · exact held.texts other old
  case ordered =>
    have ordered := held.ordered
    rw [split] at ordered
    exact ordered.sublist ((List.sublist_cons_self msg later).append_left before)
  case unread =>
    intro other listed
    apply held.unread
    rw [split]
    exact ((List.sublist_cons_self msg later).append_left before).subset listed
  case read =>
    intro other listed
    rcases List.mem_append.mp listed with old | new
    · exact held.read other old
    · rw [List.mem_singleton.mp new]
  case counter => exact held.counter

theorem step_lossFree (held : s.LossFree) (stepped : step s call = some after) :
    after.LossFree := by
  cases step_cases stepped with
  | stored fields fresh number => exact held.stored fields fresh number
  | ignored other => exact held.ignored other
  | @read index => exact held.moved index
  | unchanged => exact held

theorem initial_lossFree (socketFd : Fd) (stream : Str) : (initial socketFd stream).LossFree where
  counter := rfl
  indices := .refl _
  texts := fun _ listed => absurd listed List.not_mem_nil
  ordered := .nil
  unread := fun _ listed => absurd listed List.not_mem_nil
  read := fun _ listed => absurd listed List.not_mem_nil

/-- What reading by this index returns and does. -/
structure ReadsExactly (s : Inbox) (index : Int) : Prop where
  succeeds : (s.handler.readMessageByIndex index).1.isSome ↔ 0 ≤ index ∧ index < s.texts.length
  finds : ∀ out, (s.handler.readMessageByIndex index).1 = some out →
    out.index = index ∧ s.texts[index.toNat]? = some out.texts
  moves : ∀ msg ∈ s.handler.unreadMessages, msg.index = index →
    (s.handler.readMessageByIndex index).2 = { s.handler with
      unreadMessages := s.handler.unreadMessages.filter fun other => other.index ≠ index
      readMessages := s.handler.readMessages ++ [{ msg with isRead := true }] }
  keeps : (∀ msg ∈ s.handler.unreadMessages, msg.index ≠ index) →
    (s.handler.readMessageByIndex index).2 = s.handler

theorem LossFree.readsExactly (held : s.LossFree) (index : Int) : s.ReadsExactly index := by
  by_cases present : ∃ msg ∈ s.handler.unreadMessages, msg.index = index
  · obtain ⟨msg, member, rfl⟩ := present
    have listed := List.mem_append_left s.handler.readMessages member
    obtain ⟨before, later, split, others, moved⟩ := readMessageByIndex_split held.ordered member
    constructor
    · rw [moved]
      exact ⟨fun _ => held.mem_indices.mp ⟨msg, listed, rfl⟩, fun _ => rfl⟩
    · intro out found
      rw [moved] at found
      exact Option.some.inj found ▸ ⟨rfl, held.texts msg listed⟩
    · intro again listed same
      have remaining : s.handler.unreadMessages.filter (fun other => other.index ≠ msg.index) =
          before ++ later := by
        have kept := List.filter_eq_self.mpr fun other listed =>
          decide_eq_true (others other listed)
        rw [List.filter_append] at kept
        rw [split, List.filter_append, List.filter_cons_of_neg (by simp), kept]
      have unique : again = msg := by
        rw [split] at listed
        by_contra apart
        have elsewhere : again ∈ before ++ later := by
          simp only [List.mem_append, List.mem_cons] at listed ⊢
          tauto
        exact others again elsewhere same
      rw [moved, remaining, unique]
    · exact fun absent => absurd rfl (absent msg member)
  · have absent : ∀ msg ∈ s.handler.unreadMessages, msg.index ≠ index := by
      intro msg member same
      exact present ⟨msg, member, same⟩
    have result := readMessageByIndex_of_not_unread absent
    constructor
    · rw [result, List.find?_isSome, ← held.mem_indices]
      constructor
      · rintro ⟨msg, listed, same⟩
        exact ⟨msg, List.mem_append_right _ listed, of_decide_eq_true same⟩
      · rintro ⟨msg, listed, same⟩
        rcases List.mem_append.mp listed with unread | read
        · exact absurd same (absent msg unread)
        · exact ⟨msg, read, decide_eq_true same⟩
    · intro out found
      rw [result] at found
      have same : out.index = index := by simpa using List.find?_some found
      have listed := List.mem_append_right s.handler.unreadMessages (List.mem_of_find?_eq_some found)
      exact ⟨same, same ▸ held.texts out listed⟩
    · exact fun msg member same => absurd same (absent msg member)
    · exact fun _ => by rw [result]

/-- Messages leave the unread ones only by being read. -/
theorem step_extends (held : s.LossFree) (stepped : step s call = some after) :
    s.received <+: after.received ∧ s.handler.readMessages <+: after.handler.readMessages ∧
      ∀ msg ∈ s.handler.unreadMessages, call ≠ .readMessageByIndex msg.index →
        msg ∈ after.handler.unreadMessages := by
  cases step_cases stepped with
  | stored =>
    exact ⟨List.prefix_append _ _, List.prefix_refl _, fun msg member _ => List.mem_append_left _ member⟩
  | ignored => exact ⟨List.prefix_append _ _, List.prefix_refl _, fun msg member _ => member⟩
  | @read index =>
    by_cases present : ∃ msg ∈ s.handler.unreadMessages, msg.index = index
    · obtain ⟨msg, member, same⟩ := present
      rw [(held.readsExactly index).moves msg member same]
      refine ⟨List.prefix_refl _, List.prefix_append _ _, fun other listed apart => ?_⟩
      have different : other.index ≠ index := fun same => apart (same ▸ rfl)
      exact List.mem_filter.mpr ⟨listed, decide_eq_true different⟩
    · have absent : ∀ msg ∈ s.handler.unreadMessages, msg.index ≠ index := by
        intro msg member same
        exact present ⟨msg, member, same⟩
      rw [(held.readsExactly index).keeps absent]
      exact ⟨List.prefix_refl _, List.prefix_refl _, fun msg member _ => member⟩
  | unchanged => exact ⟨List.prefix_refl _, List.prefix_refl _, fun msg member _ => member⟩

theorem run_extends {calls : List Call} (held : s.LossFree) (run : Run step Free s calls after) :
    s.received <+: after.received ∧ s.handler.readMessages <+: after.handler.readMessages ∧
      ∀ msg ∈ s.handler.unreadMessages, .readMessageByIndex msg.index ∉ calls →
        msg ∈ after.handler.unreadMessages := by
  induction run with
  | refl s => exact ⟨List.prefix_refl _, List.prefix_refl _, fun msg member _ => member⟩
  | @next s middle after call calls _ stepped _ ih =>
    obtain ⟨received, read, unread⟩ := step_extends held stepped
    obtain ⟨received', read', unread'⟩ := ih (step_lossFree held stepped)
    refine ⟨received.trans received', read.trans read', fun msg member avoided => ?_⟩
    obtain ⟨now, later⟩ := not_or.mp (mt List.mem_cons.mpr avoided)
    exact unread' msg (unread msg member fun same => now same.symm) later

/-- However arrivals, reads and replies take turns, the two lists partition the
messages received, and a message moves from one to the other when it is first read.
The source counts in an `int`, so fewer than `2 ^ 31` messages are assumed. -/
theorem inbox_loss_free {socketFd : Fd} {stream : Str}
    (reached : Reachable step (initial socketFd stream) s) :
    s.LossFree ∧ (∀ index, s.ReadsExactly index) ∧
    ∀ {calls : List Call} {later : Inbox}, Run step Free s calls later →
      s.received <+: later.received ∧ s.handler.readMessages <+: later.handler.readMessages ∧
      ∀ msg ∈ s.handler.getUnreadMessages, .readMessageByIndex msg.index ∉ calls →
        msg ∈ later.handler.getUnreadMessages := by
  have held := reached.invariant (initial_lossFree socketFd stream) step_lossFree
  exact ⟨held, held.readsExactly, fun run => run_extends held run⟩

/-- Two messages arrive, the second is read twice and a third index is tried in vain. -/
theorem inbox_loss_free_of_two : ∃ s : Inbox, s.texts = [⟨str "ann", str "s", str "one"⟩,
      ⟨str "bob", str "s", str "two"⟩] ∧ s.handler.unreadMessages.map ReceivedMessage.index = [0] ∧
    s.handler.readMessages.map ReceivedMessage.index = [1] ∧ s.LossFree ∧
    ∀ index, s.ReadsExactly index := by
  let stream := encodeMessage (str "MESSAGE;ann;s;one;1") ++ encodeMessage (str "OK;Message sent") ++
    encodeMessage (str "MESSAGE;bob;s;two;2")
  obtain ⟨s, ran, texts, unread, read⟩ := evaluated
    (o := execute step (initial 5 stream) [.listen 0, .listen 0, .listen 0,
      .readMessageByIndex 1, .readMessageByIndex 1, .readMessageByIndex 2])
    (P := fun s => s.texts = [⟨str "ann", str "s", str "one"⟩, ⟨str "bob", str "s", str "two"⟩] ∧
      s.handler.unreadMessages.map ReceivedMessage.index = [0] ∧
      s.handler.readMessages.map ReceivedMessage.index = [1]) (by decide)
  obtain ⟨held, reads, _⟩ := inbox_loss_free ⟨_, execute_run _ ran⟩
  exact ⟨s, texts, unread, read, held, reads⟩

end Inbox
end SocketMessaging
