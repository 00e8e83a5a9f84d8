import SocketMessaging.Library.Exchange
import SocketMessaging.Server.Impersonation
import SocketMessaging.Server.Sender

/-! What the log of events says about the server as a mail exchange: who is logged in
under which name, and which frames the kernel took for each connection. -/
namespace SocketMessaging
open Prog Transition Utils MessageParser CommandHandler

/-- Letters are messages between users, and notices are frames of the administrator. -/
abbrev Mail := Exchange Str ConnId Message Str

abbrev MailOp := Exchange.Op Str ConnId Message Str

def Message.texts (message : Message) : Texts := ⟨message.sender, message.subject, message.body⟩

/-- What a client stores of an item in its box. -/
def itemTexts : Message ⊕ Str → Option Texts
  | .inl message => some message.texts
  | .inr frame => messageTexts frame

/-- A frame of which the kernel took at least one byte for this connection. -/
def Event.takenFor (conn : ConnId) : Event → Option Str
  | .send _ user message (some _) => if user = some conn then some message else none
  | _ => none

/-- What an event does to the exchange. A frame that clients store is a notice,
unless the dispatcher wrote it. -/
def Event.op : Event → Option MailOp
  | .register username (some conn) => some (.login username conn)
  | .unregister username => some (.logout username)
  | .send _ (some conn) message (some _) =>
    if (messageTexts message).isSome then some (.notify conn message) else none
  | _ => none

/-- Who is logged in under each name after an event. -/
def Event.track (owner : Str → Option ConnId) : Event → Str → Option ConnId
  | .register username conn => Function.update owner username conn
  | .unregister username => Function.update owner username none
  | _ => owner

namespace World

/-- The connection that is logged in under a name. -/
def owner (w : World) (username : Str) : Option ConnId :=
  (w.table.handleOf username).bind fun _ => w.table.registrant username

def framesTaken (conn : ConnId) (w : World) : List Str := w.os.log.filterMap (Event.takenFor conn)

variable {w v : World}

theorem owner_of_table (same : v.table = w.table) : v.owner = w.owner := by
  unfold owner
  rw [same]

theorem owner_registerClient (env : Env) (username : Str) (socket : Fd) (w : World) :
    (w.registerClient env username socket).owner =
      Function.update w.owner username (w.os.holder socket) := by
  funext name
  unfold owner
  rw [handleOf_registerClient, table_registerClient]
  by_cases same : name = username
  · subst same
    rw [if_pos rfl, Function.update_self]
    exact Function.update_self ..
  · rw [if_neg same, Function.update_of_ne same]
    congr 1
    funext _
    exact Function.update_of_ne same _ _

theorem owner_unregisterClient (username : Str) (w : World) :
    (w.unregisterClient username).owner = Function.update w.owner username none := by
  funext name
  unfold owner
  rw [handleOf_unregisterClient, table_unregisterClient]
  by_cases same : name = username
  · subst same
    rw [if_pos rfl, Function.update_self]
    rfl
  · rw [if_neg same, Function.update_of_ne same]
    rfl

theorem framesTaken_append {events : List Event} (log : v.os.log = w.os.log ++ events)
    (conn : ConnId) : v.framesTaken conn =
      w.framesTaken conn ++ events.filterMap (Event.takenFor conn) := by
  rw [framesTaken, log, List.filterMap_append]
  rfl

end World

section Tracking
variable {w : World} {env : Env}

/-- Writing and closing leave the logins alone. -/
theorem track_of_neutral {events : List Event} (owner : Str → Option ConnId)
    (neutral : ∀ event ∈ events, event.track owner = owner) :
    events.foldl Event.track owner = owner := by
  induction events with
  | nil => rfl
  | cons event events ih =>
    obtain ⟨first, rest⟩ := List.forall_mem_cons.mp neutral
    rw [List.foldl_cons, first]
    exact ih rest

/-- The log tells who is logged in, as long as the server is not stopped. -/
theorem exec_track (env : Env) {β : Type} (action : Action β) (w : World)
    (running : (exec env action w).2.server.status = .running) :
    ∃ events, (exec env action w).2.os.log = w.os.log ++ events ∧
      (exec env action w).2.owner = events.foldl Event.track w.owner := by
  have quietly : action.Quiet → ∃ events, (exec env action w).2.os.log = w.os.log ++ events ∧
      (exec env action w).2.owner = events.foldl Event.track w.owner := by
    intro quiet
    obtain ⟨events, grown, logged⟩ := exec_log env action w
    refine ⟨events, grown, ?_⟩
    rw [World.owner_of_table (exec_quiet env action w quiet)]
    symm
    apply track_of_neutral
    intro event member
    have logs := logged event member
    cases action with
    | registerClient | unregisterClient | close | stop => exact quiet.elim
    | send =>
      obtain ⟨taken, rfl⟩ := logs
      rfl
    | pingClients =>
      obtain ⟨entry, _, taken, rfl⟩ := logs
      rfl
    | _ => exact logs.elim
  cases action with
  | registerClient username socket =>
    exact ⟨_, rfl, World.owner_registerClient env username socket w⟩
  | unregisterClient username => exact ⟨_, rfl, World.owner_unregisterClient username w⟩
  | close socket =>
    refine ⟨_, rfl, ?_⟩
    change (w.close socket).owner = w.owner
    unfold World.owner
    rw [World.table_close]
    rfl
  | stop => cases running
  | _ => exact quietly trivial

theorem run_track (env : Env) (program : Handler) (w : World)
    (running : (program.run (exec env) w).2.server.status = .running) :
    ∃ events, (program.run (exec env) w).2.os.log = w.os.log ++ events ∧
      (program.run (exec env) w).2.owner = events.foldl Event.track w.owner := by
  induction program generalizing w with
  | done => exact ⟨[], (List.append_nil _).symm, rfl⟩
  | act action next ih =>
    obtain ⟨first, grown, tracked⟩ := exec_track env action w (running_of_run running)
    obtain ⟨rest, grownAgain, trackedAgain⟩ := ih _ _ running
    refine ⟨first ++ rest, ?_, ?_⟩
    · rw [run_act, grownAgain, grown, List.append_assoc]
    · rw [run_act, trackedAgain, tracked, List.foldl_append]

/-- A program that does not register leaves no registration in the log. -/
theorem run_unregistered {program : Handler} (only : program.Only (Action.Registers fun _ => False))
    (env : Env) (w : World) : ∃ events, (program.run (exec env) w).2.os.log = w.os.log ++ events ∧
      ∀ event ∈ events, ∀ username conn, event ≠ .register username conn := by
  refine run_log env (only.weaken fun action silent w event logs => ?_) w
  cases action with
  | registerClient => exact silent.elim
  | send =>
    obtain ⟨taken, rfl⟩ := logs
    exact fun _ _ => nofun
  | unregisterClient | close =>
    obtain rfl := logs
    exact fun _ _ => nofun
  | pingClients =>
    obtain ⟨entry, _, taken, rfl⟩ := logs
    exact fun _ _ => nofun
  | stop =>
    obtain ⟨entry, _, rfl⟩ := logs
    exact fun _ _ => nofun
  | _ => exact logs.elim

end Tracking

/-- Each registration in the log gives a name that is free to some connection. -/
def FreshLogins : (Str → Option ConnId) → List Event → Prop
  | _, [] => True
  | owner, event :: events =>
    (∀ username conn, event = .register username conn → owner username = none ∧ conn ≠ none) ∧
      FreshLogins (event.track owner) events

theorem freshLogins_of_none {events : List Event}
    (none : ∀ event ∈ events, ∀ username conn, event ≠ .register username conn)
    (owner : Str → Option ConnId) : FreshLogins owner events := by
  induction events generalizing owner with
  | nil => trivial
  | cons event events ih =>
    obtain ⟨first, rest⟩ := List.forall_mem_cons.mp none
    exact ⟨fun username conn same => absurd same (first username conn), ih rest _⟩

/-- The exchange agrees with these logins, and with what clients store of these frames. -/
structure Carries (mail : Mail) (owner : Str → Option ConnId) (frames : ConnId → List Str) :
    Prop where
  online : mail.online = owner
  boxes : ∀ conn, (mail.boxes conn).filterMap itemTexts = (frames conn).filterMap messageTexts

section Following
variable {mail : Mail} {owner : Str → Option ConnId} {frames : ConnId → List Str}

/-- What events do to the exchange: no letter is posted or settled. -/
structure Followed (mail : Mail) (ops : List MailOp) (after : Mail) : Prop where
  run : Run (Exchange.step Message.recipient) Free mail ops after
  queue : after.queue = mail.queue
  settled : after.settled = mail.settled

theorem event_followed (carries : Carries mail owner frames) (event : Event)
    (fresh : ∀ username conn, event = .register username conn → owner username = none ∧ conn ≠ none) :
    ∃ after, Followed mail event.op.toList after ∧
      Carries after (event.track owner) fun conn => frames conn ++ (event.takenFor conn).toList := by
  have still : event.op = none → event.track owner = owner →
      (∀ conn, (event.takenFor conn).toList.filterMap messageTexts = []) →
      ∃ after, Followed mail event.op.toList after ∧
        Carries after (event.track owner) fun conn => frames conn ++ (event.takenFor conn).toList := by
    intro silent same unread
    refine ⟨mail, ⟨silent ▸ .refl _, rfl, rfl⟩, carries.online.trans same.symm,
      fun conn => ?_⟩
    rw [List.filterMap_append, unread, List.append_nil]
    exact carries.boxes conn
  cases event with
  | register username conn =>
    obtain ⟨free, some_⟩ := fresh username conn rfl
    obtain ⟨conn, rfl⟩ := Option.ne_none_iff_exists'.mp some_
    have enabled : (mail.online username).isNone = true := by
      rw [carries.online, free]
      rfl
    refine ⟨_, ⟨.single trivial (if_pos enabled), rfl, rfl⟩, ?_, fun other => ?_⟩
    · exact congrArg (fun online => Function.update online username (some conn)) carries.online
    · rw [List.filterMap_append, ← carries.boxes]
      exact (List.append_nil _).symm
  | unregister username =>
    refine ⟨_, ⟨.single trivial rfl, rfl, rfl⟩, ?_, fun other => ?_⟩
    · exact congrArg (fun online => Function.update online username none) carries.online
    · rw [List.filterMap_append, ← carries.boxes]
      exact (List.append_nil _).symm
  | close => exact still rfl rfl fun _ => rfl
  | send socket user message taken =>
    cases taken with
    | none => exact still (by cases user <;> rfl) rfl fun _ => rfl
    | some count =>
      cases user with
      | none => exact still rfl rfl fun _ => rfl
      | some conn =>
        have kept : ∀ other, (Event.takenFor other (.send socket (some conn) message
            (some count))).toList.filterMap messageTexts =
            if other = conn then (messageTexts message).toList else [] := by
          intro other
          by_cases same : conn = other
          · subst same
            cases read : messageTexts message <;> simp [Event.takenFor, read]
          · simp [Event.takenFor, same, Ne.symm same]
        cases read : messageTexts message with
        | none =>
          refine still (by simp [Event.op, read]) rfl fun other => ?_
          rw [kept, read]
          split <;> rfl
        | some texts =>
          have op : Event.op (.send socket (some conn) message (some count)) =
              some (.notify conn message) := by
            simp [Event.op, read]
          refine ⟨mail.put conn (.inr message), ⟨?_, rfl, rfl⟩, carries.online, fun other => ?_⟩
          · rw [op]
            exact .single trivial rfl
          · rw [Exchange.boxes_put, List.filterMap_append, List.filterMap_append, carries.boxes, kept]
            split
            · simp [itemTexts, read]
            · rfl

theorem events_followed (carries : Carries mail owner frames) {events : List Event}
    (fresh : FreshLogins owner events) : ∃ after, Followed mail (events.filterMap Event.op) after ∧
      Carries after (events.foldl Event.track owner) fun conn =>
        frames conn ++ events.filterMap (Event.takenFor conn) := by
  induction events generalizing mail owner frames with
  | nil =>
    refine ⟨mail, ⟨.refl _, rfl, rfl⟩, carries.online, fun conn => ?_⟩
    rw [List.filterMap_nil, List.append_nil]
    exact carries.boxes conn
  | cons event events ih =>
    obtain ⟨between, first, carried⟩ := event_followed carries event fresh.1
    obtain ⟨after, rest, carriedAgain⟩ := ih carried fresh.2
    have ops : (event :: events).filterMap Event.op =
        event.op.toList ++ events.filterMap Event.op := by
      cases op : event.op <;> simp [op]
    have taken : ∀ conn, (event :: events).filterMap (Event.takenFor conn) =
        (event.takenFor conn).toList ++ events.filterMap (Event.takenFor conn) := by
      intro conn
      cases frame : event.takenFor conn <;> simp [frame]
    refine ⟨after, ⟨ops ▸ first.run.trans rest.run, rest.queue.trans first.queue,
      rest.settled.trans first.settled⟩, carriedAgain.online, fun conn => ?_⟩
    rw [taken, ← List.append_assoc]
    exact carriedAgain.boxes conn

theorem posts_followed (mail : Mail) (messages : List Message) :
    Run (Exchange.step Message.recipient) Free mail (messages.map .post)
      { mail with queue := mail.queue ++ messages, posted := mail.posted ++ messages } := by
  induction messages generalizing mail with
  | nil =>
    rw [List.append_nil, List.append_nil]
    exact .refl mail
  | cons message messages ih =>
    refine .next trivial rfl ?_
    have rest := ih { mail with queue := mail.queue ++ [message], posted := mail.posted ++ [message] }
    rw [List.append_assoc, List.append_assoc] at rest
    exact rest

end Following

/-- A frame that does not begin like a MESSAGE is not stored. -/
theorem messageTexts_of_plain {frame : Str} (plain : Plain frame) : messageTexts frame = none := by
  rcases Inbox.parseMessage_cases frame with ⟨texts, time, fields, parsed⟩ | ⟨other, _⟩
  · have reads : ReadsFrom frame texts.sender := ⟨_, parsed, rfl, rfl⟩
    exact absurd plain reads.not_plain
  · exact other

end SocketMessaging
