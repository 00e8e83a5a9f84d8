import Mathlib.Logic.Function.Iterate
import SocketMessaging.Client.Inbox

/-! Replies to stored messages. A reply goes through the same validation as any other
message, and its subject is four characters longer than the one it answers unless
that was a reply already. -/
namespace SocketMessaging
open Transition Utils MessageParser NetworkStream

/-- How many times the subject carries the prefix of replies. -/
def replyPrefixes : Str → Nat
  | 82 :: 101 :: 58 :: 32 :: rest => replyPrefixes rest + 1
  | _ => 0

namespace MessageHandler

/-- Replies to replies keep their subject. -/
theorem replySubject_replySubject (subject : Str) :
    replySubject (replySubject subject) = replySubject subject := by
  by_cases reply : subject.take 4 = str "Re: "
  · have same : replySubject subject = subject := if_pos reply
    rw [same, same]
  · rw [show replySubject subject = str "Re: " ++ subject from if_neg reply]
    exact if_pos rfl

theorem replySubject_iterate (subject : Str) (replies : Nat) :
    replySubject^[replies + 1] subject = replySubject subject := by
  induction replies with
  | zero => rfl
  | succ replies ih => rw [Function.iterate_succ_apply', ih, replySubject_replySubject]

theorem replyPrefixes_replySubject (subject : Str) :
    replyPrefixes (replySubject subject) ≤ replyPrefixes subject + 1 := by
  unfold replySubject
  split
  · exact Nat.le_succ _
  · exact Nat.le_refl _

/-- However long the chain of replies, the prefix is added at most once. -/
theorem replyPrefixes_iterate (subject : Str) (replies : Nat) :
    replyPrefixes (replySubject^[replies] subject) ≤ replyPrefixes subject + 1 := by
  cases replies with
  | zero => exact Nat.le_succ _
  | succ replies =>
    rw [replySubject_iterate]
    exact replyPrefixes_replySubject subject

/-- The server relays the subject of a reply as it is if it relayed the original so. -/
theorem sanitize_replySubject {subject : Str} (clean : sanitize subject = subject) :
    sanitize (replySubject subject) = replySubject subject := by
  unfold replySubject
  split
  · exact clean
  · have head : sanitize (str "Re: ") = str "Re: " := by decide
    rw [sanitize, List.map_append]
    exact congrArg₂ (· ++ ·) head clean

theorem sanitize_iterate {subject : Str} (clean : sanitize subject = subject) (replies : Nat) :
    (fun s => sanitize (replySubject s))^[replies] subject = replySubject^[replies] subject ∧
      sanitize (replySubject^[replies] subject) = replySubject^[replies] subject := by
  induction replies with
  | zero => exact ⟨rfl, clean⟩
  | succ replies ih =>
    rw [Function.iterate_succ_apply', Function.iterate_succ_apply', ih.1]
    have kept := sanitize_replySubject ih.2
    exact ⟨kept, kept⟩

/-- The subject of the reply is valid exactly if there is room for the prefix. -/
theorem isValidSubject_replySubject {config : RuntimeConfig} {subject : Str}
    (valid : isValidSubject config subject = true) :
    isValidSubject config (replySubject subject) = true ↔ subject.take 4 = str "Re: " ∨
      subject.length + 4 ≤
        lengthLimit config (str "MAX_SUBJECT_LENGTH") Constants.maxSubjectLength := by
  unfold replySubject
  split
  · rename_i reply
    exact iff_of_true valid (.inl reply)
  · rename_i plain
    have some_ : str "Re: " ++ subject ≠ [] :=
      List.append_ne_nil_of_left_ne_nil (by decide) subject
    have length : (str "Re: " ++ subject).length = subject.length + 4 := by
      rw [List.length_append, Nat.add_comm]
      rfl
    simp only [isValidSubject, some_, if_false, decide_eq_true_eq, length, plain, false_or]

/-- A message is found by its index if no other one has the same. -/
theorem replyToMessage_eq {handler : MessageHandler} {original : ReceivedMessage}
    (stored : original ∈ handler.unreadMessages ++ handler.readMessages)
    (unique : ∀ other ∈ handler.unreadMessages ++ handler.readMessages,
      other.index = original.index → other = original)
    (config : RuntimeConfig) (transfer : Str → Option Nat) (body : Str) :
    handler.replyToMessage config transfer original.index body =
      handler.sendMessage config transfer original.sender (replySubject original.subject) body := by
  have found : (handler.unreadMessages ++ handler.readMessages).find?
      (fun msg => msg.index = original.index) = some original := by
    cases result : (handler.unreadMessages ++ handler.readMessages).find?
        (fun msg => msg.index = original.index) with
    | none => exact absurd (decide_eq_true rfl) (List.find?_eq_none.mp result original stored)
    | some other =>
      have same : other.index = original.index := by simpa using List.find?_some result
      rw [unique other (List.mem_of_find?_eq_some result) same]
  rw [List.find?_append] at found
  simp only [replyToMessage, found]

end MessageHandler

namespace Inbox
open MessageHandler
variable {s : Inbox}

theorem LossFree.unique (held : s.LossFree) {msg other : ReceivedMessage}
    (stored : msg ∈ s.handler.unreadMessages ++ s.handler.readMessages)
    (listed : other ∈ s.handler.unreadMessages ++ s.handler.readMessages)
    (same : other.index = msg.index) : other = msg := by
  have numbers : ((List.range s.texts.length).map Int.ofNat).Nodup :=
    List.nodup_range.map fun _ _ same => Int.ofNat.inj same
  have distinct := held.indices.nodup_iff.mpr numbers
  exact List.inj_on_of_nodup_map distinct listed stored same

/-- The reply passes validation and is sent. -/
def Replies (s : Inbox) (config : RuntimeConfig) (transfer : Str → Option Nat)
    (original : ReceivedMessage) (body : Str) : Prop :=
  isValidSubject config (replySubject original.subject) = true ∧
    s.handler.replyToMessage config transfer original.index body =
      (true, some (build (str "SEND") [original.sender, replySubject original.subject, body]))

/-- A message in the store, from a valid name and with a valid subject, can be replied
to exactly if its subject is that of a reply or leaves room for the prefix; and the
prefix is added once in any chain of replies. -/
theorem replied_iff {socketFd : Fd} {stream : Str}
    (reached : Reachable step (initial socketFd stream) s)
    {original : ReceivedMessage}
    (stored : original ∈ s.handler.unreadMessages ++ s.handler.readMessages)
    {config : RuntimeConfig} (name : isValidUsername config original.sender = true)
    (subject : isValidSubject config original.subject = true)
    (connected : 0 ≤ s.handler.socketFd) {transfer : Str → Option Nat}
    (healthy : ∀ frame, (transfer frame).isSome = true) (body : Str) :
    (s.Replies config transfer original body ↔ original.subject.take 4 = str "Re: " ∨
      original.subject.length + 4 ≤
        lengthLimit config (str "MAX_SUBJECT_LENGTH") Constants.maxSubjectLength) ∧
    (∀ replies, replyPrefixes (replySubject^[replies] original.subject) ≤
      replyPrefixes original.subject + 1) ∧
    (sanitize original.subject = original.subject → ∀ replies,
      (fun s => sanitize (replySubject s))^[replies] original.subject =
        replySubject^[replies] original.subject) := by
  have held := (inbox_loss_free reached).1
  refine ⟨?_, replyPrefixes_iterate _, fun clean replies => (sanitize_iterate clean replies).1⟩
  have reply := replyToMessage_eq stored (fun other => held.unique stored) config transfer body
  rw [← isValidSubject_replySubject subject, Replies, reply]
  apply and_iff_left_of_imp
  intro valid
  have taken := healthy (encodeMessage (build (str "SEND") [original.sender,
    replySubject original.subject, body]))
  simp only [sendMessage, sendCommand, name, valid, taken, Bool.not_true, Bool.false_and,
    Bool.false_eq_true, if_false, Int.not_lt.mpr connected]

/-- A client that has received one message from ann, with this subject. -/
def annWrites (subject : Str) : Option Inbox :=
  execute step (initial 5 (encodeMessage (build (str "MESSAGE") [str "ann", subject, str "hello", str "0"])))
    [.listen 0]

/-- The message that she wrote, as it is stored. -/
def annsMessage (subject : Str) : ReceivedMessage where
  sender := str "ann"
  subject := subject
  body := str "hello"
  timestamp := 0
  receivedAt := 0

def takesAll (frame : Str) : Option Nat := some frame.length

theorem replied_of_ann : ∃ s : Inbox, s.handler.unreadMessages = [annsMessage (str "Hi")] ∧
    s.Replies .initial takesAll (annsMessage (str "Hi")) (str "hello yourself") := by
  obtain ⟨s, ran, socket, stored⟩ := evaluated (o := annWrites (str "Hi"))
    (P := fun s => s.handler.socketFd = 5 ∧ s.handler.unreadMessages = [annsMessage (str "Hi")])
    (by decide)
  have member : annsMessage (str "Hi") ∈ s.handler.unreadMessages ++ s.handler.readMessages := by
    rw [stored]
    exact List.mem_cons_self
  have connected : 0 ≤ s.handler.socketFd := by rw [socket]; decide
  obtain ⟨replies, _⟩ := replied_iff ⟨_, execute_run _ ran⟩ member
    (by decide : isValidUsername .initial (str "ann") = true)
    (by decide : isValidSubject .initial (str "Hi") = true) connected
    (fun _ => rfl : ∀ frame, (takesAll frame).isSome = true) (str "hello yourself")
  exact ⟨s, stored, replies.mpr (.inr (by decide))⟩

/-- The subject of a message may be too long to reply to. -/
theorem not_always_replied : ¬ ∀ (socketFd : Fd) (stream : Str) (s : Inbox)
    (original : ReceivedMessage) (config : RuntimeConfig) (transfer : Str → Option Nat) (body : Str),
    Reachable step (initial socketFd stream) s →
    original ∈ s.handler.unreadMessages ++ s.handler.readMessages →
    isValidUsername config original.sender = true →
      isValidSubject config original.subject = true →
    0 ≤ s.handler.socketFd → (∀ frame, (transfer frame).isSome = true) →
    s.Replies config transfer original body := by
  intro claimed
  let subject : Str := List.replicate 98 97
  obtain ⟨s, ran, socket, stored⟩ := evaluated (o := annWrites subject)
    (P := fun s => s.handler.socketFd = 5 ∧ s.handler.unreadMessages = [annsMessage subject])
    (by decide +kernel)
  have member : annsMessage subject ∈ s.handler.unreadMessages ++ s.handler.readMessages := by
    rw [stored]
    exact List.mem_cons_self
  have connected : 0 ≤ s.handler.socketFd := by rw [socket]; decide
  have replies := claimed _ _ s _ .initial takesAll (str "hello") ⟨_, execute_run _ ran⟩ member
    (by decide) (by decide) connected fun _ => rfl
  exact absurd replies.1 (by decide)

end Inbox
end SocketMessaging
