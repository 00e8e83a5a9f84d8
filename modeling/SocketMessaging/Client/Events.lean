import SocketMessaging.Client.ClientUI

/-! The events of the server in the user interface. The listening thread delivers them
while the thread of the user works through the menu. All that a wait for an answer sees
of them is the type of the last one displayed, and events that arrive during a command
are not displayed but put in a queue. -/
namespace SocketMessaging
open Transition MessageParser

namespace ClientUI

/-- What the entries of `commands` call. -/
inductive Command where
  | sendMessage (broadcast : Bool)
  | listUnread
  | readMessage
  | listUsers
  | getLog
  deriving DecidableEq

def commands : List (Str × Command) :=
  [(str "1", .sendMessage false), (str "2", .listUnread), (str "3", .readMessage),
    (str "4", .listUsers), (str "5", .sendMessage true), (str "6", .getLog)]

/-- The request of a command that waits for an answer, and the type of the answer. -/
def Command.query : Command → Option (Str × ServerEvent)
  | .listUsers => some (build (str "LIST_USERS") [], .users)
  | .getLog => some (build (str "GET_LOG") [], .log)
  | _ => none

/-- The default of `waitForResponse`, which no caller changes. -/
def timeoutMs : Nat := 3000

/-- The texts that `displayEvent` prints; fixed texts and colors are left out. -/
def displayEvent (event : ServerEventData) : List Str :=
  match event.type with
  | .message => [event.args.getD 0 [], event.args.getD 1 []]
  | .ok | .errorMsg | .log => [event.data]
  | .users => printUserList event.data
  | .ping => []

/-- The texts that `displayPendingEvents` prints for one event. -/
def displayPending (event : ServerEventData) : List Str :=
  match event.type with
  | .message => [event.args.getD 0 [], event.args.getD 1 []]
  | .errorMsg | .log => [event.data]
  | .users => printUserList event.data
  | .ok | .ping => []

/-- Where the thread of the user is in `run`, or in the `waitForResponse` it called. -/
inductive Point where
  /-- The menu has been printed, and events are still blocked. -/
  | menu
  | choosing
  | chosen (choice : Str)
  | executing (command : Command)
  /-- The request has been sent, and events are still blocked. -/
  | requested (expectedType : ServerEvent)
  | released (expectedType : ServerEvent)
  | testing (expectedType : ServerEvent) (start : Nat)
  | polling (expectedType : ServerEvent) (start : Nat)
  | sleeping (expectedType : ServerEvent) (start : Nat)
  /-- The loop of `waitForResponse` is over. -/
  | returning
  | prompting (known : Bool)
  | displaying
  | stopped
  deriving DecidableEq

/-- A call of `onServerEvent`: the flag as it read it, and how many requests had been
sent by then. -/
structure Delivery where
  event : ServerEventData
  inCommand : Bool
  request : Nat
  deriving DecidableEq

/-- Where the listening thread is. -/
inductive Listener where
  | listening
  | called (event : ServerEventData)
  | queueing (delivery : Delivery)
  | recording (delivery : Delivery)
  deriving DecidableEq

/-- The event of a call that has not read the flag yet. -/
def Listener.incoming : Listener → Option ServerEventData
  | .called event => some event
  | _ => none

/-- The call that is about to write `lastReceivedEvent`. -/
def Listener.displayed : Listener → Option Delivery
  | .recording delivery => some delivery
  | _ => none

/-- The type of the answer to the request that is sent next. -/
def Point.asks : Point → Option ServerEvent
  | .executing command => command.query.map Prod.snd
  | _ => none

/-- The type of the answer to the request that was sent, until its wait is over. -/
def Point.expects : Point → Option ServerEvent
  | .requested expectedType | .released expectedType | .testing expectedType _
  | .polling expectedType _ | .sleeping expectedType _ => some expectedType
  | _ => none

/-- The wait has released the events and is not over. -/
def Point.waits : Point → Bool
  | .released _ | .testing _ _ | .polling _ _ | .sleeping _ _ => true
  | _ => false

end ClientUI

open ClientUI

/-- `stream` is what is still to come from the server, and `lastReceivedEvent` is `none`
for `NONE`. The clock counts nanoseconds. The last four fields are a record of the run:
the requests sent, the calls of `onServerEvent` that have returned, those of them that
wrote `lastReceivedEvent` since a wait last found it, both with the latest first, and
whether the wait under way has polled in vain since an answer was delivered. -/
structure ClientUI where
  handler : MessageHandler
  stream : Str
  point : Point := .menu
  listener : Listener := .listening
  inCommand : Bool := false
  pendingEvents : List ServerEventData := []
  lastReceivedEvent : Option ServerEvent := none
  clock : Nat := 0
  displayed : List Str := []
  requests : List Str := []
  delivered : List Delivery := []
  recorded : List Delivery := []
  overdue : Bool := false
  deriving DecidableEq

namespace ClientUI

def initial (socketFd : Fd) (stream : Str) : ClientUI where
  handler := ⟨socketFd, [], [], 0⟩
  stream := stream

inductive Move where
  /-- The listening thread receives a frame; `now` is the system clock. -/
  | receive (now : Int)
  /-- `onServerEvent` reads the flag, and displays the event if it is down. -/
  | loadFlag
  /-- `onServerEvent` takes the lock, queues or records the event, and returns. -/
  | finish
  /-- The thread of the user writes the flag. -/
  | storeFlag
  | choose (choice : Str)
  /-- The command runs, up to the wait if it waits; `index` is what `readMessage` asks for. -/
  | execute (index : Int)
  | readClock (now : Nat)
  | poll
  | wake
  | enter
  | display
  deriving DecidableEq

/-- An event of this type has been delivered since the last request was sent. -/
def Answered (s : ClientUI) (expectedType : ServerEvent) : Prop :=
  ∃ delivery ∈ s.delivered, delivery.event.type = expectedType ∧
    delivery.request = s.requests.length

instance (s : ClientUI) (expectedType : ServerEvent) : Decidable (s.Answered expectedType) :=
  inferInstanceAs (Decidable (∃ _ ∈ _, _))

/-- `none` means that the move is not enabled. The sections that hold the lock on the
events are single moves. -/
def step (s : ClientUI) : Move → Option ClientUI
  | .receive now =>
    match s.listener, s.handler.listenOnce now s.stream with
    | .listening, some heard => some { s with
        handler := heard.handler
        stream := heard.unread
        listener := heard.event.elim .listening .called }
    | _, _ => none
  | .loadFlag =>
    match s.listener with
    | .called event =>
      let delivery : Delivery := ⟨event, s.inCommand, s.requests.length⟩
      if s.inCommand then some { s with listener := .queueing delivery }
      else some { s with
        listener := .recording delivery
        displayed := s.displayed ++ displayEvent event }
    | _ => none
  | .finish =>
    match s.listener with
    | .queueing delivery => some { s with
        listener := .listening
        pendingEvents := s.pendingEvents ++
          if delivery.event.type ≠ .ok then [delivery.event] else []
        delivered := delivery :: s.delivered }
    | .recording delivery => some { s with
        listener := .listening
        lastReceivedEvent := some delivery.event.type
        delivered := delivery :: s.delivered
        recorded := delivery :: s.recorded }
    | _ => none
  | .storeFlag =>
    match s.point with
    | .menu => some { s with inCommand := false, point := .choosing }
    | .chosen choice => some { s with
        inCommand := true
        point :=
          if choice = str "7" then .stopped
          else (commands.lookup choice).elim (.prompting false) .executing }
    | .requested expectedType => some { s with inCommand := false, point := .released expectedType }
    | .returning => some { s with inCommand := true, point := .prompting true }
    | _ => none
  | .choose choice => if s.point = .choosing then some { s with point := .chosen choice } else none
  | .execute index =>
    match s.point with
    | .executing command =>
      match command.query with
      | some (request, expectedType) => some { s with
          requests := s.requests ++ [request]
          point := .requested expectedType }
      | none => some { s with
          handler :=
            if command = .readMessage then (s.handler.readMessageByIndex index).2 else s.handler
          point := .prompting true }
    | _ => none
  | .readClock now =>
    if s.clock ≤ now then
      match s.point with
      | .released expectedType => some { s with
          clock := now, overdue := false, point := .testing expectedType now }
      | .testing expectedType start => some { s with
          clock := now
          point :=
            if timeoutMs < (now - start) / 1000000 then .returning else .polling expectedType start }
      | _ => none
    else none
  | .poll =>
    match s.point with
    | .polling expectedType start =>
      if s.lastReceivedEvent = some expectedType then
        some { s with lastReceivedEvent := none, recorded := [], point := .returning }
      else some { s with
        overdue := s.overdue || decide (s.Answered expectedType)
        point := .sleeping expectedType start }
    | _ => none
  | .wake =>
    match s.point with
    | .sleeping expectedType start => some { s with point := .testing expectedType start }
    | _ => none
  | .enter =>
    match s.point with
    | .prompting known => some { s with point := if known then .displaying else .menu }
    | _ => none
  | .display =>
    if s.point = .displaying then some { s with
      displayed := s.displayed ++ s.pendingEvents.flatMap displayPending
      pendingEvents := []
      point := .menu }
    else none

/-- The move ends the wait. -/
def Ends (s : ClientUI) (move : Move) : Prop :=
  ∃ after, step s move = some after ∧ after.point = .returning

/-- What a wait is for: a poll ends it exactly if an answer has been delivered, the event
it finds was delivered since the request, and it times out only if no poll came after
an answer. -/
def Right (s : ClientUI) : Move → Prop
  | .poll => ∀ expectedType start, s.point = .polling expectedType start →
      (s.Ends .poll ↔ s.Answered expectedType) ∧
        (s.Ends .poll → ∀ found ∈ s.recorded.head?, found.request = s.requests.length)
  | .readClock now => s.Ends (.readClock now) → s.overdue = false
  | _ => True

/-- What a schedule has to avoid: when a request is sent, an event of the type of its
answer is in the slot or about to be; `onServerEvent` reads the flag for such an event
before the wait lowers it; an event of another type is recorded between the answer and
the next poll. -/
def Undisturbed (s : ClientUI) : Move → Prop
  | .execute _ => ∀ expectedType ∈ s.point.asks, s.lastReceivedEvent ≠ some expectedType ∧
      ∀ delivery ∈ s.listener.displayed, delivery.event.type ≠ expectedType
  | .loadFlag => ∀ event ∈ s.listener.incoming, s.point ≠ .requested event.type
  | .finish => ∀ delivery ∈ s.listener.displayed, ∀ expectedType ∈ s.point.expects,
      s.Answered expectedType → delivery.event.type = expectedType
  | _ => True

instance (s : ClientUI) (move : Move) : Decidable (s.Undisturbed move) := by
  unfold Undisturbed
  cases move <;> infer_instance

/-- What an enabled move does. -/
inductive Stepped (s : ClientUI) : Move → ClientUI → Prop where
  | received {now : Int} {heard : MessageHandler.Heard} :
      s.handler.listenOnce now s.stream = some heard → Stepped s (.receive now) { s with
        handler := heard.handler
        stream := heard.unread
        listener := heard.event.elim .listening .called }
  | blocked {event : ServerEventData} : s.listener = .called event → s.inCommand = true →
      Stepped s .loadFlag { s with
        listener := .queueing ⟨event, s.inCommand, s.requests.length⟩ }
  | displayed {event : ServerEventData} : s.listener = .called event → s.inCommand = false →
      Stepped s .loadFlag { s with
        listener := .recording ⟨event, s.inCommand, s.requests.length⟩
        displayed := s.displayed ++ displayEvent event }
  | queued {delivery : Delivery} : s.listener = .queueing delivery → Stepped s .finish { s with
      listener := .listening
      pendingEvents := s.pendingEvents ++
        if delivery.event.type ≠ .ok then [delivery.event] else []
      delivered := delivery :: s.delivered }
  | recorded {delivery : Delivery} : s.listener = .recording delivery → Stepped s .finish { s with
      listener := .listening
      lastReceivedEvent := some delivery.event.type
      delivered := delivery :: s.delivered
      recorded := delivery :: s.recorded }
  | found {expectedType : ServerEvent} {start : Nat} : s.point = .polling expectedType start →
      s.lastReceivedEvent = some expectedType → Stepped s .poll { s with
        lastReceivedEvent := none, recorded := [], point := .returning }
  | missed {expectedType : ServerEvent} {start : Nat} : s.point = .polling expectedType start →
      s.lastReceivedEvent ≠ some expectedType → Stepped s .poll { s with
        overdue := s.overdue || decide (s.Answered expectedType)
        point := .sleeping expectedType start }
  | shown : Stepped s .display { s with
      displayed := s.displayed ++ s.pendingEvents.flatMap displayPending
      pendingEvents := []
      point := .menu }
  | asked {index : Int} {command : Command} {request : Str} {expectedType : ServerEvent} :
      s.point = .executing command → command.query = some (request, expectedType) →
      Stepped s (.execute index) { s with
        requests := s.requests ++ [request], point := .requested expectedType }
  /-- The thread of the user goes on, and leaves the events alone. -/
  | went {move : Move} {handler : MessageHandler} {point : Point} {inCommand overdue : Bool}
      {clock : Nat} : move ≠ .poll → (overdue = true → s.overdue = true) →
      (∀ expectedType ∈ point.expects, expectedType ∈ s.point.expects) →
      (point.waits = true → inCommand = true → s.point.waits = true ∧ s.inCommand = true) →
      Stepped s move { s with handler, point, inCommand, overdue, clock }

theorem step_cases {s t : ClientUI} {move : Move} (stepped : step s move = some t) :
    Stepped s move t := by
  cases move with
  | receive now =>
    unfold step at stepped
    dsimp only at stepped
    split at stepped
    · rename_i heard _ listened
      cases stepped
      exact .received listened
    · cases stepped
  | loadFlag =>
    unfold step at stepped
    dsimp only at stepped
    split at stepped
    · rename_i event called
      split at stepped
      · rename_i raised
        cases stepped
        exact .blocked called raised
      · rename_i down
        cases stepped
        exact .displayed called (Bool.not_eq_true _ ▸ down)
    · cases stepped
  | finish =>
    unfold step at stepped
    dsimp only at stepped
    split at stepped
    · rename_i delivery queueing
      cases stepped
      exact .queued queueing
    · rename_i delivery recording
      cases stepped
      exact .recorded recording
    · cases stepped
  | poll =>
    unfold step at stepped
    dsimp only at stepped
    split at stepped
    · rename_i expectedType start polling
      split at stepped
      · rename_i last
        cases stepped
        exact .found polling last
      · rename_i other
        cases stepped
        exact .missed polling other
    · cases stepped
  | display =>
    obtain ⟨_, same⟩ := Option.ite_none_right_eq_some.mp stepped
    cases same
    exact .shown
  | readClock now =>
    unfold step at stepped
    dsimp only at stepped
    split_ifs at stepped
    split at stepped
    · rename_i here
      cases stepped
      exact .went nofun nofun (here ▸ fun _ same => same) (here ▸ fun _ raised => ⟨rfl, raised⟩)
    · rename_i here
      cases stepped
      split
      · exact .went nofun id nofun nofun
      · exact .went nofun id (here ▸ fun _ same => same) (here ▸ fun _ raised => ⟨rfl, raised⟩)
    · cases stepped
  | choose choice =>
    obtain ⟨_, same⟩ := Option.ite_none_right_eq_some.mp stepped
    cases same
    exact .went nofun id nofun nofun
  | storeFlag =>
    unfold step at stepped
    dsimp only at stepped
    split at stepped
    · cases stepped
      exact .went nofun id nofun nofun
    · rename_i choice _
      cases stepped
      split
      · exact .went nofun id nofun nofun
      · cases commands.lookup choice with
        | none => exact .went nofun id nofun nofun
        | some command => exact .went nofun id nofun nofun
    · rename_i here
      cases stepped
      exact .went nofun id (here ▸ fun _ same => same) nofun
    · cases stepped
      exact .went nofun id nofun nofun
    · cases stepped
  | wake =>
    unfold step at stepped
    dsimp only at stepped
    split at stepped
    · rename_i here
      cases stepped
      exact .went nofun id (here ▸ fun _ same => same) (here ▸ fun _ raised => ⟨rfl, raised⟩)
    · cases stepped
  | enter =>
    unfold step at stepped
    dsimp only at stepped
    split at stepped
    · rename_i known here
      cases stepped
      cases known with
      | true => exact .went nofun id nofun nofun
      | false => exact .went nofun id nofun nofun
    · cases stepped
  | execute index =>
    unfold step at stepped
    dsimp only at stepped
    split at stepped
    · rename_i command here
      split at stepped
      · rename_i request expectedType query
        cases stepped
        exact .asked here query
      · cases stepped
        exact .went nofun id nofun nofun
    · cases stepped

/-- The slot holds the type of the event displayed last, unless a wait has found it since. -/
structure Sound (s : ClientUI) : Prop where
  slot : s.lastReceivedEvent = s.recorded.head?.map fun delivery => delivery.event.type
  recorded : s.recorded ⊆ s.delivered

theorem initial_sound (socketFd : Fd) (stream : Str) : (initial socketFd stream).Sound :=
  ⟨rfl, List.nil_subset _⟩

theorem Sound.step {s t : ClientUI} {move : Move} (sound : s.Sound) (stepped : s.step move = some t) :
    t.Sound := by
  cases step_cases stepped with
  | received | blocked | displayed | missed | shown | asked | went =>
    exact ⟨sound.slot, sound.recorded⟩
  | queued => exact ⟨sound.slot, List.subset_cons_of_subset _ sound.recorded⟩
  | @recorded delivery => exact ⟨rfl, List.cons_subset_cons delivery sound.recorded⟩
  | found => exact ⟨rfl, List.nil_subset _⟩

theorem ends_poll {s : ClientUI} {expectedType : ServerEvent} {start : Nat}
    (polling : s.point = .polling expectedType start) :
    s.Ends .poll ↔ s.lastReceivedEvent = some expectedType := by
  constructor
  · rintro ⟨after, stepped, returning⟩
    cases step_cases stepped with
    | found here last =>
      cases polling.symm.trans here
      exact last
    | missed => cases returning
    | went other => exact absurd rfl other
  · intro last
    refine ⟨{ s with lastReceivedEvent := none, recorded := [], point := .returning }, ?_, rfl⟩
    simp only [step, polling, last, if_true]

/-- A poll sees the event displayed last. -/
theorem Sound.ends_poll {s : ClientUI} {expectedType : ServerEvent} {start : Nat} (sound : s.Sound)
    (polling : s.point = .polling expectedType start) :
    s.Ends .poll ↔ ∃ last ∈ s.recorded.head?, last.event.type = expectedType := by
  rw [ClientUI.ends_poll polling, sound.slot, Option.map_eq_some_iff]
  rfl

/-- What is so from a request until its wait is over: an event of the expected type in the
slot is the answer, and once there is an answer there is one in the slot. -/
structure Expecting (s : ClientUI) (expectedType : ServerEvent) : Prop where
  fresh : ∀ last ∈ s.recorded.head?, last.event.type = expectedType →
    last.request = s.requests.length
  coming : ∀ delivery ∈ s.listener.displayed, delivery.event.type = expectedType →
    delivery.request = s.requests.length
  blocked : ∀ delivery, s.listener = .queueing delivery → delivery.event.type = expectedType →
    delivery.request ≠ s.requests.length
  caught : s.Answered expectedType → ∃ last ∈ s.recorded.head?, last.event.type = expectedType

/-- What an undisturbed schedule keeps. -/
structure Steady (s : ClientUI) : Prop where
  sound : s.Sound
  timely : s.overdue = false
  lowered : s.point.waits = true → s.inCommand = false
  past : ∀ delivery ∈ s.delivered, delivery.request ≤ s.requests.length
  begun : ∀ delivery, s.listener = .queueing delivery ∨ s.listener = .recording delivery →
    delivery.request ≤ s.requests.length
  expecting : ∀ expectedType ∈ s.point.expects, s.Expecting expectedType

theorem initial_steady (socketFd : Fd) (stream : Str) : (initial socketFd stream).Steady where
  sound := initial_sound socketFd stream
  timely := rfl
  lowered := nofun
  past := nofun
  begun := nofun
  expecting := nofun

theorem requested_of_expects {point : Point} {expectedType : ServerEvent}
    (expects : expectedType ∈ point.expects) (before : point.waits = false) :
    point = .requested expectedType := by
  cases point with
  | requested other => exact congrArg Point.requested (Option.some.inj expects)
  | released | testing | polling | sleeping => cases before
  | _ => cases expects

/-- A poll that finds nothing of the expected type comes before the answer. -/
theorem Steady.unanswered {s : ClientUI} {expectedType : ServerEvent} {start : Nat}
    (steady : s.Steady) (polling : s.point = .polling expectedType start)
    (other : s.lastReceivedEvent ≠ some expectedType) : ¬ s.Answered expectedType := by
  intro answered
  have expects : expectedType ∈ s.point.expects := polling ▸ rfl
  obtain ⟨last, latest, expected⟩ := (steady.expecting expectedType expects).caught answered
  apply other
  rw [steady.sound.slot, latest]
  exact congrArg some expected

/-- A call that queues its event read the flag before the request was sent, or has an
event of another type. -/
theorem Expecting.queued {s : ClientUI} {expectedType : ServerEvent} {delivery : Delivery}
    (expecting : s.Expecting expectedType) (queueing : s.listener = .queueing delivery)
    (pendingEvents : List ServerEventData) :
    Expecting { s with
      listener := .listening, pendingEvents, delivered := delivery :: s.delivered } expectedType := by
  refine { expecting with coming := nofun, blocked := nofun, caught := ?_ }
  rintro ⟨other, member, expected, fresh⟩
  rcases List.mem_cons.mp member with rfl | member
  · exact absurd fresh (expecting.blocked other queueing expected)
  · exact expecting.caught ⟨other, member, expected, fresh⟩

/-- An event that is recorded is the answer, or comes before it. -/
theorem Expecting.recorded {s : ClientUI} {expectedType : ServerEvent} {delivery : Delivery}
    (expecting : s.Expecting expectedType) (recording : s.listener = .recording delivery)
    (kept : s.Answered expectedType → delivery.event.type = expectedType) :
    Expecting { s with
      listener := .listening
      lastReceivedEvent := some delivery.event.type
      delivered := delivery :: s.delivered
      recorded := delivery :: s.recorded } expectedType := by
  refine { fresh := ?_, coming := nofun, blocked := nofun, caught := ?_ }
  · intro last latest expected
    obtain rfl : delivery = last := Option.some.inj latest
    exact expecting.coming delivery (recording ▸ rfl) expected
  · rintro ⟨other, member, expected, fresh⟩
    refine ⟨delivery, rfl, ?_⟩
    rcases List.mem_cons.mp member with rfl | member
    · exact expected
    · exact kept ⟨other, member, expected, fresh⟩

/-- A request that finds no event of the type of its answer has all of them to come. -/
theorem Steady.asked {s : ClientUI} {expectedType : ServerEvent} (steady : s.Steady)
    (empty : s.lastReceivedEvent ≠ some expectedType)
    (none : ∀ delivery ∈ s.listener.displayed, delivery.event.type ≠ expectedType)
    (request : Str) (point : Point) :
    Expecting { s with requests := s.requests ++ [request], point } expectedType := by
  have length : (s.requests ++ [request]).length = s.requests.length + 1 := List.length_append
  constructor
  · intro last latest expected
    refine absurd ?_ empty
    rw [steady.sound.slot, latest]
    exact congrArg some expected
  · exact fun delivery member expected => absurd expected (none delivery member)
  · intro delivery queueing _ fresh
    have earlier := steady.begun delivery (.inl queueing)
    rw [fresh, length] at earlier
    exact absurd earlier (Nat.not_succ_le_self _)
  · rintro ⟨delivery, member, _, fresh⟩
    have earlier := steady.past delivery member
    rw [fresh, length] at earlier
    exact absurd earlier (Nat.not_succ_le_self _)

theorem Steady.step {s t : ClientUI} {move : Move} (steady : s.Steady)
    (undisturbed : s.Undisturbed move) (stepped : s.step move = some t) : t.Steady := by
  have sound := steady.sound.step stepped
  cases step_cases stepped with
  | @received now heard listened =>
    obtain ⟨handler, unread, event, reply⟩ := heard
    refine { steady with
      sound
      begun := ?_
      expecting := fun expectedType expects => { steady.expecting expectedType expects with
        coming := ?_, blocked := ?_ } }
    all_goals cases event <;> nofun
  | @blocked event called raised =>
    refine { steady with
      sound
      begun := ?_
      expecting := fun expectedType expects => { steady.expecting expectedType expects with
        coming := nofun, blocked := ?_ } }
    · rintro delivery (same | same)
      · cases same
        exact Nat.le_refl _
      · cases same
    · rintro delivery same rfl
      cases same
      have early := requested_of_expects expects (Bool.eq_false_iff.mpr fun waits =>
        absurd (steady.lowered waits) (by simp [raised]))
      exact absurd early (undisturbed event (called ▸ rfl))
  | @displayed event called down =>
    refine { steady with
      sound
      begun := ?_
      expecting := fun expectedType expects => { steady.expecting expectedType expects with
        coming := ?_, blocked := nofun } }
    · rintro delivery (same | same)
      · cases same
      · cases same
        exact Nat.le_refl _
    · rintro delivery same _
      cases same
      rfl
  | @queued delivery queueing =>
    refine { steady with
      sound
      past := ?_
      begun := nofun
      expecting := fun expectedType expects =>
        (steady.expecting expectedType expects).queued queueing _ }
    exact List.forall_mem_cons.mpr ⟨steady.begun delivery (.inl queueing), steady.past⟩
  | @recorded delivery recording =>
    have shown : delivery ∈ s.listener.displayed := recording ▸ rfl
    refine { steady with
      sound
      past := ?_
      begun := nofun
      expecting := fun expectedType expects => ?_ }
    · exact List.forall_mem_cons.mpr ⟨steady.begun delivery (.inr recording), steady.past⟩
    · have expecting := steady.expecting expectedType expects
      exact expecting.recorded recording (undisturbed delivery shown expectedType expects)
  | found polling last => exact { steady with sound, lowered := nofun, expecting := nofun }
  | @missed expectedType start polling other =>
    have unanswered := steady.unanswered polling other
    refine { steady with sound, timely := ?_, lowered := ?_, expecting := ?_ }
    · change (s.overdue || decide (s.Answered expectedType)) = false
      rw [steady.timely, Bool.false_or]
      exact decide_eq_false unanswered
    · exact fun _ => steady.lowered (polling ▸ rfl)
    · rintro _ same
      obtain rfl := Option.some.inj same
      have expecting := steady.expecting expectedType (polling ▸ rfl)
      exact ⟨expecting.fresh, expecting.coming, expecting.blocked, expecting.caught⟩
  | shown => exact { steady with sound, lowered := nofun, expecting := nofun }
  | @asked index command request expectedType executing query =>
    have asks : expectedType ∈ s.point.asks := by
      rw [executing, Point.asks, query]
      rfl
    obtain ⟨empty, none⟩ := undisturbed expectedType asks
    have length : (s.requests ++ [request]).length = s.requests.length + 1 :=
      List.length_append
    refine { steady with
      sound, lowered := nofun, past := ?_, begun := ?_, expecting := ?_ }
    · intro delivery member
      rw [length]
      exact Nat.le_succ_of_le (steady.past delivery member)
    · intro delivery member
      rw [length]
      exact Nat.le_succ_of_le (steady.begun delivery member)
    · rintro _ same
      obtain rfl := Option.some.inj same
      exact steady.asked empty none request _
  | @went _ _ point inCommand overdue _ _ kept expects lowered =>
    refine { steady with sound, timely := ?_, lowered := ?_, expecting := ?_ }
    · rw [Bool.eq_false_iff]
      exact fun late => absurd (kept late) (by simp [steady.timely])
    · intro waits
      rw [Bool.eq_false_iff]
      intro raised
      obtain ⟨before, raisedBefore⟩ := lowered waits raised
      exact absurd (steady.lowered before) (by simp [raisedBefore])
    · intro expectedType expected
      have expecting := steady.expecting expectedType (expects expectedType expected)
      exact ⟨expecting.fresh, expecting.coming, expecting.blocked, expecting.caught⟩

theorem Steady.right {s : ClientUI} (steady : s.Steady) (move : Move) : s.Right move := by
  cases move with
  | poll =>
    intro expectedType start polling
    have expecting := steady.expecting expectedType (polling ▸ rfl)
    have found := steady.sound.ends_poll polling
    refine ⟨found.trans ⟨?_, expecting.caught⟩, ?_⟩
    · rintro ⟨last, latest, expected⟩
      have delivered := steady.sound.recorded (List.mem_of_mem_head? latest)
      exact ⟨last, delivered, expected, expecting.fresh last latest expected⟩
    · intro ends last latest
      obtain ⟨other, same, expected⟩ := found.mp ends
      cases Option.some.inj (latest.symm.trans same)
      exact expecting.fresh last latest expected
  | readClock now => exact fun _ => steady.timely
  | _ => trivial

/-- On an undisturbed schedule waits end as they should, whatever comes next: each poll of
a wait ends it exactly if the answer has been delivered since the request, on that answer,
and no wait times out after a poll that came after the answer. -/
theorem right_of_undisturbed {socketFd : Fd} {stream : Str} {moves : List Move} {s : ClientUI}
    (run : Run step Undisturbed (initial socketFd stream) moves s) (move : Move) : s.Right move := by
  have steady := run.invariant (fun steady undisturbed stepped =>
    Steady.step steady undisturbed stepped) (initial_steady socketFd stream)
  exact steady.right move

/-- The answer comes while the wait sleeps or reads the clock, and the next poll finds it. -/
theorem right_of_undisturbed_of_users : ∃ (s : ClientUI) (start : Nat),
    s.point = .polling .users start ∧ s.Answered .users ∧ s.Ends .poll := by
  let stream := NetworkStream.encodeMessage (build (str "USERS") [str "ann"])
  let moves : List Move := [.storeFlag, .choose (str "4"), .storeFlag, .execute 0, .storeFlag,
    .readClock 0, .readClock 0, .poll, .receive 0, .loadFlag, .finish, .wake, .readClock 50000000]
  let check (s : ClientUI) (move : Move) : Bool := s.Undisturbed move
  obtain ⟨s, ran, polling, answered⟩ := evaluated
    (o := execute (guarded check step) (initial 5 stream) moves)
    (P := fun s => s.point = .polling .users 0 ∧ s.Answered .users) (by decide)
  have run : Run step Undisturbed (initial 5 stream) moves s :=
    run_of_guarded (fun _ _ passed => of_decide_eq_true passed) moves ran
  have right := right_of_undisturbed run .poll .users 0 polling
  exact ⟨s, 0, polling, answered, right.1.mpr answered⟩

/-- The answer comes before the wait has released the events: it goes to the queue, and
the wait times out. -/
theorem not_always_right : ¬ ∀ (socketFd : Fd) (stream : Str) (moves : List Move) (s : ClientUI)
    (move : Move), Run step Free (initial socketFd stream) moves s → s.Right move := by
  intro always
  let stream := NetworkStream.encodeMessage (build (str "USERS") [str "ann"])
  let moves : List Move := [.storeFlag, .choose (str "4"), .storeFlag, .execute 0, .receive 0,
    .loadFlag, .finish, .storeFlag, .readClock 0, .readClock 0, .poll, .wake]
  obtain ⟨s, ran, overdue, ends⟩ := evaluated (o := execute step (initial 5 stream) moves)
    (P := fun s => s.overdue = true ∧
      (step s (.readClock 3001000000)).any (fun after => after.point = .returning) = true)
    (by decide)
  obtain ⟨after, stepped, returning⟩ := (Option.any_eq_true _ _).mp ends
  have timely := always 5 stream moves s (.readClock 3001000000) (execute_run moves ran)
    ⟨after, stepped, of_decide_eq_true returning⟩
  exact absurd (overdue.symm.trans timely) (by decide)

end ClientUI
end SocketMessaging
