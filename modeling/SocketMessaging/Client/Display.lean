import SocketMessaging.Client.Events

/-! Where the events of the server go. The listening thread displays an event at once
or puts it into the queue that is displayed after the command under way; only an OK
that comes during a command is dropped. No interleaving of the two threads loses
another event, displays one twice or turns the queue around. -/
namespace SocketMessaging
open Transition MessageParser NetworkStream

namespace ClientUI
variable {s after : ClientUI} {move : Move}

/-- The event of a frame, unless `listen` answers the frame itself. -/
def eventOf (frame : Str) : Option ServerEventData :=
  (MessageHandler.parseMessage frame).filter fun event => event.type ≠ .ping

/-- What becomes of an event, by the flag as `onServerEvent` read it. -/
inductive Handling where
  | shown
  | queued
  | dropped
  deriving DecidableEq

def Delivery.handling (delivery : Delivery) : Handling :=
  if delivery.inCommand then if delivery.event.type = .ok then .dropped else .queued else .shown

/-- The calls of `onServerEvent` that have dealt with their event, in their order. -/
def dealt (s : ClientUI) : List Delivery := s.delivered.reverse ++ s.listener.displayed.toList

/-- The events that were handled so, in the order in which they came. -/
def handled (s : ClientUI) (handling : Handling) : List ServerEventData :=
  (s.dealt.filter fun delivery => delivery.handling = handling).map Delivery.event

/-- What has been displayed of an event, and on which occasion. -/
inductive Showing where
  | atOnce (event : ServerEventData)
  | fromQueue (event : ServerEventData)

namespace Showing

def texts : Showing → List Str
  | .atOnce event => displayEvent event
  | .fromQueue event => displayPending event

def direct : Showing → Option ServerEventData
  | .atOnce event => some event
  | .fromQueue _ => none

def delayed : Showing → Option ServerEventData
  | .atOnce _ => none
  | .fromQueue event => some event

end Showing

/-- The event that `onServerEvent` has not dealt with yet. -/
def underway : Listener → List ServerEventData
  | .called event => [event]
  | .queueing delivery => [delivery.event]
  | .listening | .recording _ => []

/-- The account of a run from a stream: the frames received, what has become of their
events, and what has been displayed. -/
structure Account (stream : Str) (received : List Str) (screen : List Showing) (s : ClientUI) :
    Prop where
  read : received ++ (framing.readAll s.stream).1 = (framing.readAll stream).1
  heard : s.dealt.map Delivery.event ++ underway s.listener = received.filterMap eventOf
  displayed : s.displayed = screen.flatMap Showing.texts
  direct : screen.filterMap Showing.direct = s.handled .shown
  delayed : screen.filterMap Showing.delayed ++ s.pendingEvents = s.handled .queued
  blocked : ∀ delivery, s.listener = .queueing delivery → delivery.inCommand = true

theorem handled_of_same (same : after.dealt = s.dealt) (handling : Handling) :
    after.handled handling = s.handled handling := by
  rw [handled, same]
  rfl

theorem handled_of_more {delivery : Delivery} (more : after.dealt = s.dealt ++ [delivery])
    (handling : Handling) : after.handled handling =
      s.handled handling ++ if delivery.handling = handling then [delivery.event] else [] := by
  rw [handled, more, List.filter_append, List.map_append, List.filter_singleton]
  by_cases same : delivery.handling = handling
  · simp [handled, same]
  · simp [handled, same]

/-- `listen` takes one frame and passes its event on. -/
theorem listenOnce_frame {handler : MessageHandler} {now : Int} {stream : Str}
    {heard : MessageHandler.Heard} (listened : handler.listenOnce now stream = some heard) :
    ∃ frame, framing.decode stream = some (frame, heard.unread) ∧ heard.event = eventOf frame := by
  unfold MessageHandler.listenOnce at listened
  cases decoded : decodeMessage stream with
  | none => simp [decoded] at listened
  | some found =>
    obtain ⟨frame, rest⟩ := found
    simp only [decoded] at listened
    refine ⟨frame, ?_⟩
    cases parsed : MessageHandler.parseMessage frame with
    | none =>
      simp only [parsed] at listened
      cases listened
      exact ⟨decoded, by rw [eventOf, parsed]; rfl⟩
    | some event =>
      obtain ⟨type, data, args⟩ := event
      simp only [parsed] at listened
      cases type with
      | _ =>
        cases listened
        exact ⟨decoded, by rw [eventOf, parsed]; rfl⟩

theorem listening_of_receive {now : Int} (stepped : step s (.receive now) = some after) :
    s.listener = .listening := by
  simp only [step] at stepped
  split at stepped
  · assumption
  · cases stepped

/-- A move that deals with no event keeps the account, given what it does to the frames. -/
theorem Account.undealt {stream : Str} {received more : List Str} {screen : List Showing}
    (account : Account stream received screen s) (same : after.dealt = s.dealt)
    (displayed : after.displayed = s.displayed) (pending : after.pendingEvents = s.pendingEvents)
    (read : more ++ (framing.readAll after.stream).1 = (framing.readAll stream).1)
    (heard : s.dealt.map Delivery.event ++ underway after.listener = more.filterMap eventOf)
    (blocked : ∀ delivery, after.listener = .queueing delivery → delivery.inCommand = true) :
    Account stream more screen after := by
  refine ⟨read, ?_, displayed.trans account.displayed, ?_, ?_, blocked⟩
  · rw [same]
    exact heard
  · rw [handled_of_same same]
    exact account.direct
  · rw [handled_of_same same, pending]
    exact account.delayed

/-- Each move keeps an account, which may grow. -/
theorem Account.step {stream : Str} {received : List Str} {screen : List Showing}
    (account : Account stream received screen s) (stepped : s.step move = some after) :
    ∃ received screen, Account stream received screen after := by
  have heard := account.heard
  cases step_cases stepped with
  | @received now taken listened =>
    obtain ⟨frame, decoded, event⟩ := listenOnce_frame listened
    have listening := listening_of_receive stepped
    obtain ⟨handler, unread, passed, reply⟩ := taken
    have quiet : (passed.elim Listener.listening Listener.called).displayed = none ∧
        underway (passed.elim .listening .called) = passed.toList := by
      cases passed <;> exact ⟨rfl, rfl⟩
    have same : dealt { s with
        handler
        stream := unread
        listener := passed.elim .listening .called } = s.dealt := by
      rw [dealt, dealt, quiet.1, listening]
      rfl
    refine ⟨received ++ [frame], screen, account.undealt same rfl rfl ?_ ?_ ?_⟩
    · rw [← account.read, Framing.readAll_some decoded, List.append_assoc, List.singleton_append]
    · have single : [frame].filterMap eventOf = (eventOf frame).toList := by
        cases found : eventOf frame <;> simp [found]
      simp only [listening, underway, List.append_nil] at heard
      rw [heard, quiet.2, List.filterMap_append, single]
      exact congrArg (_ ++ Option.toList ·) event
    · cases passed <;> nofun
  | @blocked event called raised =>
    have same : dealt { s with listener := .queueing ⟨event, s.inCommand, s.requests.length⟩ } =
        s.dealt := by
      rw [dealt, dealt, called]
      rfl
    refine ⟨received, screen, account.undealt same rfl rfl account.read ?_ ?_⟩
    · rw [← heard, called]
      rfl
    · rintro delivery ⟨⟩
      exact raised
  | @displayed event called down =>
    let delivery : Delivery := ⟨event, s.inCommand, s.requests.length⟩
    have more : dealt { s with
        listener := .recording delivery
        displayed := s.displayed ++ displayEvent event } = s.dealt ++ [delivery] := by
      rw [dealt, dealt, called, List.append_assoc]
      rfl
    have shown : delivery.handling = .shown := by
      change (if s.inCommand then _ else _) = _
      rw [down]
      rfl
    refine ⟨received, screen ++ [.atOnce event], account.read, ?_, ?_, ?_, ?_, nofun⟩
    · rw [← heard, more, called, List.map_append]
      exact List.append_nil _
    · rw [List.flatMap_append, List.flatMap_singleton, ← account.displayed]
      rfl
    · rw [handled_of_more more, shown, if_pos rfl, List.filterMap_append, account.direct]
      rfl
    · rw [handled_of_more more, shown, if_neg (by decide), List.append_nil, List.filterMap_append,
        ← account.delayed]
      exact congrArg (· ++ s.pendingEvents) (List.append_nil _)
  | @queued delivery queueing =>
    have raised := account.blocked delivery queueing
    have more : dealt { s with
        listener := .listening
        pendingEvents := s.pendingEvents ++
          if delivery.event.type ≠ .ok then [delivery.event] else []
        delivered := delivery :: s.delivered } = s.dealt ++ [delivery] := by
      rw [dealt, dealt, queueing]
      simp [Listener.displayed]
    refine ⟨received, screen, account.read, ?_, account.displayed, ?_, ?_, nofun⟩
    · rw [← heard, more, queueing, List.map_append]
      exact List.append_nil _
    · rw [handled_of_more more, Delivery.handling, raised, if_pos rfl, account.direct]
      split <;> exact (List.append_nil _).symm
    · rw [handled_of_more more, Delivery.handling, raised, if_pos rfl, ← account.delayed,
        ← List.append_assoc]
      by_cases ok : delivery.event.type = .ok
      · simp [ok]
      · simp [ok]
  | @recorded delivery recording =>
    have same : dealt { s with
        listener := .listening
        lastReceivedEvent := some delivery.event.type
        delivered := delivery :: s.delivered
        recorded := delivery :: s.recorded } = s.dealt := by
      rw [dealt, dealt, recording]
      simp [Listener.displayed]
    refine ⟨received, screen, account.undealt same rfl rfl account.read ?_ nofun⟩
    rw [← heard, recording]
    rfl
  | shown =>
    refine ⟨received, screen ++ s.pendingEvents.map .fromQueue, account.read, heard, ?_, ?_, ?_,
      account.blocked⟩
    · rw [List.flatMap_append, List.flatMap_map, ← account.displayed]
      rfl
    · have none : (s.pendingEvents.map Showing.fromQueue).filterMap Showing.direct = [] := by
        rw [List.filterMap_map]
        exact List.filterMap_eq_nil_iff.mpr fun _ _ => rfl
      rw [List.filterMap_append, none, List.append_nil]
      exact account.direct
    · have all : (s.pendingEvents.map Showing.fromQueue).filterMap Showing.delayed =
          s.pendingEvents := by
        rw [List.filterMap_map]
        exact List.filterMap_some
      rw [List.filterMap_append, all, List.append_nil]
      exact account.delayed
  | found | missed | asked | went =>
    exact ⟨received, screen, account.undealt rfl rfl rfl account.read heard account.blocked⟩

theorem initial_account (socketFd : Fd) (stream : Str) :
    Account stream [] [] (initial socketFd stream) where
  read := rfl
  heard := rfl
  displayed := rfl
  direct := rfl
  delayed := rfl
  blocked := nofun

/-- However the two threads interleave, the events of the frames received, but for the one
that `onServerEvent` has not dealt with yet, have each been displayed at once if their call
found the flag down. If it found the flag up, an OK was dropped, and any other event has
been displayed once from the queue or waits in it. At once and from the queue they are
displayed in the order in which they came. -/
theorem events_accounted {socketFd : Fd} {stream : Str} {moves : List Move}
    (run : Run step Free (initial socketFd stream) moves s) :
    ∃ received screen, Account stream received screen s := by
  refine run.invariant (P := fun s => ∃ received screen, Account stream received screen s)
    (fun held _ stepped => ?_) ⟨[], [], initial_account socketFd stream⟩
  obtain ⟨received, screen, account⟩ := held
  exact account.step stepped

/-- Of three events the first is displayed and the second, an OK, is dropped; the last
waits while the user is asked for a message to read. -/
theorem events_accounted_of_three : ∃ (s : ClientUI) (stream : Str) (received : List Str)
    (screen : List Showing), s.displayed = [str "one"] ∧
    s.pendingEvents.map ServerEventData.data = [str "three"] ∧
    s.dealt.map Delivery.handling = [.shown, .dropped, .queued] ∧ s.stream = [] ∧
    Account stream received screen s := by
  let stream := [build (str "LOG") [str "one"], build (str "OK") [str "two"],
    build (str "ERROR") [str "three"]].flatMap encodeMessage
  let moves : List Move := [.storeFlag, .receive 0, .loadFlag, .finish, .choose (str "3"),
    .storeFlag, .receive 0, .loadFlag, .finish, .execute 0, .receive 0, .loadFlag, .finish]
  obtain ⟨s, ran, displayed, pending, handled, read⟩ := evaluated
    (o := execute step (initial 5 stream) moves)
    (P := fun s => s.displayed = [str "one"] ∧
      s.pendingEvents.map ServerEventData.data = [str "three"] ∧
      s.dealt.map Delivery.handling = [.shown, .dropped, .queued] ∧ s.stream = []) (by decide)
  obtain ⟨received, screen, account⟩ := events_accounted (execute_run moves ran)
  exact ⟨s, stream, received, screen, displayed, pending, handled, read, account⟩

end ClientUI
end SocketMessaging
