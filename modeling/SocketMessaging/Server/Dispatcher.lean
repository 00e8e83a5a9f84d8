import SocketMessaging.Server.Actions

/-! One round of `Dispatcher::run`: a message is taken from the queue, its
recipient is looked up again by name, and the outcome of the write decides
whether the message counts as sent. The configured delay of 10 ms, between the
queue and the lookup, is not modeled. Where a round is one operation, the message
leaves the queue at the moment of the lookup; among the threads other actions
come between. -/
namespace SocketMessaging.Dispatcher
open Utils MessageParser Prog

def undeliverable (message : Message) : Str :=
  build (str "ERROR") [str "Message to '" ++ message.recipient ++
    str "' could not be delivered: user disconnected"]

def formattedMessage (message : Message) : Str :=
  build (str "MESSAGE") [message.sender, message.subject, message.body,
    timestampToUnixString message.timestamp]

/-- The part of the round after the queue's lock is released. -/
def deliver (message : Message) : Handler := do
  let recipientSocket ← perform (.getUserSocket message.recipient)
  if recipientSocket ≤ 0 then
    let senderSocket ← perform (.getUserSocket message.sender)
    if 0 < senderSocket then
      let _ ← perform (.send senderSocket (undeliverable message))
    return
  if ← perform (.send recipientSocket (formattedMessage message)) then
    perform .incrementMessagesSent

def runOnce : Handler := do
  match ← perform .popMessage with
  | none => return
  | some message => deliver message

end SocketMessaging.Dispatcher
