import Mathlib.Data.List.Induction
import SocketMessaging.Library.QueueHistory
import SocketMessaging.Server.Invariant
import SocketMessaging.Server.Threads

/-! The messages that `queueMessage` accepts, from the call to the frame. The
dispatcher's thread works through its rounds one action at a time, and between
any two of them other threads may call `queueMessage` or do anything else. -/
namespace SocketMessaging
open Prog Transition

/-- A call of `queueMessage` and what it returned. -/
structure Call where
  message : Message
  returned : Bool

/-- The dispatcher's thread with what is left of its round. The other fields are
ghosts: the calls of `queueMessage`, numbered in the order in which they took the
lock, what became of the accepted ones, and the frames that the dispatcher has
written, each with the number of the message it took last. -/
structure Dispatching where
  world : World
  rest : Handler
  calls : List Call
  history : QueueHistory Nat
  frames : List (Nat × Str)

namespace Dispatching

inductive Move where
  | queueMessage (message : Message)
  | elsewhere {β : Type} (action : Action β)
  | dispatch

/-- The dispatcher is about to take a message from the queue. -/
def popping : Handler → Bool
  | .act .popMessage _ => true
  | _ => false

/-- The history after a call with this number and result. A message was evicted
if one was accepted and the queue has not grown. -/
def called (number : Nat) (returned grown : Bool) (history : QueueHistory Nat) :
    QueueHistory Nat :=
  if !returned then history
  else if grown then history.accept number
  else history.evict.accept number

/-- `none` means that the move is not enabled. A round begins only while the server runs. -/
def step (s : Dispatching) (label : Env × Move) : Option Dispatching :=
  let (env, move) := label
  match move with
  | .queueMessage message =>
    let result := s.world.queueMessage message
    some { s with
      world := result.2
      calls := s.calls ++ [⟨message, result.1⟩]
      history := called s.calls.length result.1 (s.world.queue.length < result.2.queue.length)
        s.history }
  | .elsewhere action =>
    if action.leavesQueue then some { s with world := (exec env action s.world).2 } else none
  | .dispatch =>
    match s.rest with
    | .done () =>
      if s.world.server.status = .running then some { s with rest := Dispatcher.runOnce } else none
    | .act action next =>
      let result := exec env action s.world
      some { s with
        world := result.2
        rest := next result.1
        history := if popping s.rest then s.history.take else s.history
        frames := s.frames ++ (sending s.rest).toList.map fun text =>
          (s.history.taken.getLastD 0, text) }

/-- The dispatcher's thread at its start. -/
def start (w : World) : Dispatching where
  world := w
  rest := .done ()
  calls := []
  history := .empty
  frames := []

/-- The numbers of the calls that returned true. -/
def accepted (calls : List Call) : List Nat :=
  (calls.zipIdx.filter fun entry => entry.1.returned).map Prod.snd

theorem accepted_snoc (calls : List Call) (call : Call) : accepted (calls ++ [call]) =
    if call.returned then accepted calls ++ [calls.length] else accepted calls := by
  simp only [accepted, List.zipIdx_append, List.filter_append, List.map_append, Nat.zero_add,
    List.zipIdx_singleton]
  cases returned : call.returned <;> simp [returned]

theorem lt_of_mem_accepted {calls : List Call} {number : Nat} (member : number ∈ accepted calls) :
    number < calls.length := by
  obtain ⟨⟨call, index⟩, listed, rfl⟩ := List.mem_map.mp member
  exact (List.mem_zipIdx' (List.mem_of_mem_filter listed)).1

/-- Acceptance is ordered by the numbers. -/
theorem accepted_ordered (calls : List Call) : (accepted calls).Pairwise (· < ·) := by
  induction calls using List.reverseRecOn with
  | nil => exact .nil
  | append_singleton calls call ih =>
    rw [accepted_snoc]
    split
    · refine List.pairwise_append.mpr ⟨ih, List.pairwise_singleton _ _, fun number member other new => ?_⟩
      rw [List.mem_singleton.mp new]
      exact lt_of_mem_accepted member
    · exact ih

end Dispatching

/-- The three outcomes of `queueMessage`: there was room, the policy refused the
message, or the oldest queued one made room for it. -/
inductive World.Queued (w : World) (message : Message) : Bool × World → Prop where
  | room : w.queue.length < w.capacity →
      Queued w message (true, w.setQueue (w.queue ++ [message]))
  | refused : w.capacity ≤ w.queue.length → Queued w message (false, w)
  | evicted : w.capacity ≤ w.queue.length → w.server.dispatcher.config.queuePolicy = .dropOldest →
      Queued w message (true, w.setQueue (w.queue.tail ++ [message]))

theorem World.queueMessage_cases (w : World) (message : Message) :
    w.Queued message (w.queueMessage message) := by
  unfold queueMessage Dispatcher.queueMessage
  dsimp only
  split
  · rename_i full
    split
    · exact .refused full
    · rename_i policy
      exact .evicted full policy
    · exact .refused full
  · rename_i room
    exact .room (Nat.not_le.mp room)

namespace Dispatching

/-- The frames that a round writes for this message. -/
def FrameFor (message : Message) (text : Str) : Prop :=
  text = Dispatcher.formattedMessage message ∨ text = Dispatcher.undeliverable message

/-- A `send` of one of these frames. -/
def Writes (message : Message) : ∀ {β : Type}, Action β → Prop
  | _, .send _ text => FrameFor message text
  | _, _ => False

/-- What a round does besides taking a message and writing a frame. -/
def Silent : ∀ {β : Type}, Action β → Prop
  | _, .queueMessage _ => False
  | _, .popMessage => False
  | _, .send _ _ => False
  | _, _ => True

/-- One delivery writes at most one frame. -/
theorem deliver_atMostOnce (message : Message) :
    (Dispatcher.deliver message).AtMostOnce (Writes message) Silent := by
  simp only [Dispatcher.deliver, perform_bind, pure_eq]
  refine .inr ⟨trivial, fun recipientSocket => ?_⟩
  dsimp only
  split_ifs
  · refine .inr ⟨trivial, fun senderSocket => ?_⟩
    dsimp only
    split_ifs
    · exact .inl ⟨.inr rfl, fun _ => trivial⟩
    · trivial
  · refine .inl ⟨.inl rfl, fun sent => ?_⟩
    dsimp only
    split_ifs
    · exact ⟨trivial, fun _ => trivial⟩
    · trivial

/-- Where the dispatcher's thread stands: at the start of a round, done with
writing, or with a message that it has taken and not yet written. -/
inductive Stage (s : Dispatching) : Prop where
  | polling : s.rest = Dispatcher.runOnce → (s.frames.map Prod.fst).Sublist s.history.taken → Stage s
  | silent : s.rest.Only Silent → (s.frames.map Prod.fst).Sublist s.history.taken → Stage s
  | delivering {number : Nat} {call : Call} {before : List Nat} :
      s.history.taken = before ++ [number] → s.calls[number]? = some call →
      s.rest.AtMostOnce (Writes call.message) Silent → (s.frames.map Prod.fst).Sublist before → Stage s

/-- What every step keeps, for a dispatcher with this configuration. -/
structure Tracked (config : DispatcherConfig) (s : Dispatching) : Prop where
  configured : s.world.server.dispatcher.config = config
  bounded : s.world.queue.length ≤ s.world.capacity
  contents : s.world.queue.map some =
    s.history.queued.map fun number => (s.calls[number]?).map Call.message
  history : s.history.Conserved
  accepted : s.history.accepted = accepted s.calls
  kept : config.queuePolicy ≠ .dropOldest → s.history.evicted = []
  stage : s.Stage
  frames : ∀ {number : Nat} {text : Str}, (number, text) ∈ s.frames →
    ∃ call, s.calls[number]? = some call ∧ FrameFor call.message text

section Steps
variable {config : DispatcherConfig} {s : Dispatching} {env : Env}

/-- Another thread does something that leaves the queue alone. -/
theorem Tracked.moved (tracked : s.Tracked config) {w : World}
    (same : w.server.dispatcher = s.world.server.dispatcher) :
    { s with world := w }.Tracked config where
  configured := same ▸ tracked.configured
  bounded := by
    unfold World.queue World.capacity
    rw [same]
    exact tracked.bounded
  contents := by
    unfold World.queue
    rw [same]
    exact tracked.contents
  history := tracked.history
  accepted := tracked.accepted
  kept := tracked.kept
  stage := by
    rcases tracked.stage with ⟨polls, written⟩ | ⟨only, written⟩ | ⟨taken, called, once, written⟩
    · exact .polling polls written
    · exact .silent only written
    · exact .delivering taken called once written
  frames := tracked.frames

/-- A call that has been made keeps its number. -/
theorem call_snoc {calls : List Call} {number : Nat} {call new : Call}
    (called : calls[number]? = some call) : (calls ++ [new])[number]? = some call := by
  rw [List.getElem?_append_left (List.getElem?_eq_some_iff.mp called).1]
  exact called

/-- The queued numbers of accepted calls stand for the same messages after another call. -/
theorem Tracked.contents_snoc (tracked : s.Tracked config) (call : Call) :
    (s.history.queued.map fun number => ((s.calls ++ [call])[number]?).map Call.message) =
      s.world.queue.map some := by
  rw [tracked.contents]
  apply List.map_congr_left
  intro number member
  have listed := tracked.history.sublist.subset (List.mem_append_right _ member)
  rw [tracked.accepted] at listed
  rw [List.getElem?_append_left (lt_of_mem_accepted listed)]

/-- Another call leaves the dispatcher's thread where it stands. -/
theorem Stage.called (stage : s.Stage) (w : World) (call : Call) {history : QueueHistory Nat}
    (same : history.taken = s.history.taken) :
    Stage { s with world := w, calls := s.calls ++ [call], history } := by
  rcases stage with ⟨polls, written⟩ | ⟨only, written⟩ | ⟨taken, called, once, written⟩
  · exact .polling polls (same ▸ written)
  · exact .silent only (same ▸ written)
  · exact .delivering (same.trans taken) (call_snoc called) once written

/-- What a call of `queueMessage` comes to. -/
inductive Called (s : Dispatching) (message : Message) : Bool → Dispatching → Prop where
  | room : s.world.queue.length < s.world.capacity → Called s message true { s with
      world := s.world.setQueue (s.world.queue ++ [message])
      calls := s.calls ++ [⟨message, true⟩]
      history := s.history.accept s.calls.length }
  | refused : Called s message false { s with calls := s.calls ++ [⟨message, false⟩] }
  | evicted : s.world.queue.length = s.world.capacity →
      s.world.server.dispatcher.config.queuePolicy = .dropOldest → Called s message true { s with
        world := s.world.setQueue (s.world.queue.tail ++ [message])
        calls := s.calls ++ [⟨message, true⟩]
        history := s.history.evict.accept s.calls.length }

theorem step_called (positive : 0 < s.world.capacity)
    (bounded : s.world.queue.length ≤ s.world.capacity) {message : Message} {after : Dispatching}
    (stepped : step s (env, .queueMessage message) = some after) :
    Called s message (s.world.queueMessage message).1 after := by
  simp only [step, Option.some.injEq] at stepped
  have outcome := s.world.queueMessage_cases message
  generalize s.world.queueMessage message = result at outcome stepped
  subst stepped
  cases outcome with
  | room free =>
    have grown : decide (s.world.queue.length <
        (s.world.setQueue (s.world.queue ++ [message])).queue.length) = true := by
      rw [World.queue_setQueue, List.length_append]
      exact decide_eq_true (Nat.lt_succ_self _)
    rw [grown]
    exact .room free
  | refused full => exact .refused
  | evicted full policy =>
    have filled : s.world.queue.length = s.world.capacity := Nat.le_antisymm bounded full
    have grown : decide (s.world.queue.length <
        (s.world.setQueue (s.world.queue.tail ++ [message])).queue.length) = false := by
      rw [World.queue_setQueue, List.length_append, List.length_tail, List.length_singleton]
      apply decide_eq_false
      omega
    rw [grown]
    exact .evicted filled policy

theorem Tracked.queueMessage (tracked : s.Tracked config) (positive : 0 < s.world.capacity)
    {message : Message} {returned : Bool} {after : Dispatching}
    (called : Called s message returned after) : after.Tracked config := by
  have fresh : s.calls.length ∉ s.history.accepted := fun member =>
    absurd (lt_of_mem_accepted (tracked.accepted ▸ member)) (Nat.lt_irrefl _)
  have last : ∀ call : Call, (s.calls ++ [call])[s.calls.length]? = some call :=
    fun call => List.getElem?_concat_length
  have frames : ∀ (call : Call) {number : Nat} {text : Str}, (number, text) ∈ s.frames →
      ∃ old, (s.calls ++ [call])[number]? = some old ∧ FrameFor old.message text := by
    intro call number text member
    obtain ⟨old, called, frame⟩ := tracked.frames member
    exact ⟨old, call_snoc called, frame⟩
  have accepted : ∀ returned, (if returned then s.history.accepted ++ [s.calls.length]
      else s.history.accepted) = Dispatching.accepted (s.calls ++ [⟨message, returned⟩]) := by
    intro returned
    rw [accepted_snoc, tracked.accepted]
  cases called with
  | room free =>
    refine ⟨tracked.configured, ?_, ?_, tracked.history.accept fresh, accepted true, tracked.kept,
      tracked.stage.called _ _ rfl, frames _⟩
    · change (s.world.queue ++ [message]).length ≤ s.world.capacity
      rw [List.length_append, List.length_singleton]
      exact free
    · change (s.world.queue ++ [message]).map some = (s.history.queued ++ [s.calls.length]).map _
      rw [List.map_append, List.map_append, tracked.contents_snoc, List.map_singleton,
        List.map_singleton, last]
      rfl
  | refused =>
    exact ⟨tracked.configured, tracked.bounded, (tracked.contents_snoc _).symm, tracked.history,
      accepted false, tracked.kept, tracked.stage.called _ _ rfl, frames _⟩
  | evicted full policy =>
    have contents := congrArg List.tail (tracked.contents_snoc ⟨message, true⟩)
    rw [← List.map_tail, ← List.map_tail] at contents
    refine ⟨tracked.configured, ?_, ?_, tracked.history.evict.accept fresh, accepted true,
      fun other => absurd (tracked.configured ▸ policy) other, tracked.stage.called _ _ rfl,
      frames _⟩
    · change (s.world.queue.tail ++ [message]).length ≤ s.world.capacity
      rw [List.length_append, List.length_tail, List.length_singleton]
      omega
    · change (s.world.queue.tail ++ [message]).map some =
        (s.history.queued.tail ++ [s.calls.length]).map _
      rw [List.map_append, List.map_append, contents, List.map_singleton, List.map_singleton, last]
      rfl

theorem silent_frame {β : Type} {action : Action β} (silent : Silent action) (next : β → Handler) :
    action.leavesQueue = true ∧ sending (.act action next) = none ∧
      popping (.act action next) = false := by
  cases action with
  | queueMessage | popMessage | send => exact silent.elim
  | _ => exact ⟨rfl, rfl, rfl⟩

/-- The dispatcher's thread takes its next message, or finds the queue empty. -/
theorem Tracked.pop (tracked : s.Tracked config)
    (written : (s.frames.map Prod.fst).Sublist s.history.taken) {rest : Handler}
    (idle : s.world.popMessage.1 = none → rest = .done ())
    (busy : ∀ message, s.world.popMessage.1 = some message → rest = Dispatcher.deliver message) :
    { s with world := s.world.popMessage.2, rest, history := s.history.take }.Tracked config := by
  have bounded : s.world.queue.tail.length ≤ s.world.capacity := by
    rw [List.length_tail]
    exact Nat.le_trans (Nat.sub_le _ _) tracked.bounded
  have contents := congrArg List.tail tracked.contents
  rw [← List.map_tail, ← List.map_tail] at contents
  refine ⟨tracked.configured, bounded, contents, tracked.history.take, tracked.accepted,
    tracked.kept, ?_, tracked.frames⟩
  have front := tracked.contents
  cases queue : s.world.queue with
  | nil =>
    have none : s.world.popMessage.1 = none := congrArg List.head? queue
    rw [queue, List.map_nil] at front
    have taken : s.history.take.taken = s.history.taken := by
      rw [QueueHistory.take, List.map_eq_nil_iff.mp front.symm]
      exact List.append_nil _
    refine .silent ?_ (taken ▸ written)
    rw [idle none]
    trivial
  | cons message messages =>
    have head : s.world.popMessage.1 = some message := congrArg List.head? queue
    rw [queue, List.map_cons] at front
    obtain ⟨number, numbers, queued, named, _⟩ := List.map_eq_cons_iff.mp front.symm
    obtain ⟨call, called, rfl⟩ := Option.map_eq_some_iff.mp named
    have taken : s.history.take.taken = s.history.taken ++ [number] := by
      rw [QueueHistory.take, queued]
      rfl
    refine .delivering taken called ?_ written
    rw [busy _ head]
    exact deliver_atMostOnce call.message

theorem Tracked.dispatch (tracked : s.Tracked config) {after : Dispatching}
    (stepped : step s (env, .dispatch) = some after) : after.Tracked config := by
  have written : (s.frames.map Prod.fst).Sublist s.history.taken := by
    rcases tracked.stage with ⟨_, written⟩ | ⟨_, written⟩ | ⟨taken, _, _, written⟩
    · exact written
    · exact written
    · exact taken ▸ written.trans (List.sublist_append_left _ _)
  cases remaining : s.rest with
  | done =>
    simp only [step, remaining, Option.ite_none_right_eq_some, Option.some.injEq] at stepped
    obtain ⟨_, rfl⟩ := stepped
    exact ⟨tracked.configured, tracked.bounded, tracked.contents, tracked.history,
      tracked.accepted, tracked.kept, .polling rfl written, tracked.frames⟩
  | @act β action next =>
    simp only [step, remaining, Option.some.injEq] at stepped
    -- What is neither a dequeue nor a frame leaves everything but the world as it is.
    have silently : Silent action → (∀ w : World, Stage { s with
        world := w
        rest := next (exec env action s.world).1 }) → after.Tracked config := by
      intro silent stage
      obtain ⟨leaves, unsent, kept⟩ := silent_frame silent next
      have moved := tracked.moved (exec_dispatcher env s.world leaves)
      rw [unsent, kept] at stepped
      simp only [Bool.false_eq_true, if_false, Option.toList_none, List.map_nil,
        List.append_nil] at stepped
      subst stepped
      exact ⟨moved.configured, moved.bounded, moved.contents, moved.history, moved.accepted,
        moved.kept, stage _, moved.frames⟩
    rcases tracked.stage with ⟨polls, _⟩ | ⟨only, _⟩ | ⟨taken, called, once, before⟩
    · rw [remaining] at polls
      cases polls
      subst stepped
      simp only [popping, if_true, sending, Option.toList_none, List.map_nil, List.append_nil]
      have popped : (exec env Action.popMessage s.world).1 = s.world.popMessage.1 := rfl
      rw [popped]
      refine tracked.pop written (fun empty => ?_) fun message front => ?_
      · rw [empty]
        rfl
      · rw [front]
        rfl
    · rw [remaining] at only
      exact silently only.1 fun _ => .silent (only.2 _) written
    · rw [remaining] at once
      rcases once with ⟨writes, only⟩ | ⟨silent, once⟩
      · cases action with
        | send socket text =>
          have leaves : (Action.send socket text).leavesQueue = true := rfl
          have moved := tracked.moved (exec_dispatcher env s.world leaves)
          subst stepped
          simp only [popping, Bool.false_eq_true, if_false, sending, Option.toList_some,
            List.map_singleton]
          rename_i number call numbers
          have last : s.history.taken.getLastD 0 = number := by rw [taken, List.getLastD_concat]
          rw [last]
          refine ⟨moved.configured, moved.bounded, moved.contents, moved.history, moved.accepted,
            moved.kept, .silent (only _) ?_, fun member => ?_⟩
          · change ((s.frames ++ [(number, text)]).map Prod.fst).Sublist s.history.taken
            rw [List.map_append, taken]
            exact before.append_right _
          · rcases List.mem_append.mp member with old | new
            · exact tracked.frames old
            · cases List.mem_singleton.mp new
              exact ⟨call, called, writes⟩
        | _ => exact writes.elim
      · exact silently silent fun _ => .delivering taken called (once _) before

theorem step_tracked (positive : 0 < sizeOfInt config.maxStoredMessages) {label : Env × Move}
    {after : Dispatching} (tracked : s.Tracked config) (stepped : step s label = some after) :
    after.Tracked config := by
  obtain ⟨env, move⟩ := label
  cases move with
  | queueMessage message =>
    have room : 0 < s.world.capacity := by
      rw [World.capacity, Dispatcher.capacity, tracked.configured]
      exact positive
    exact tracked.queueMessage room (step_called room tracked.bounded stepped)
  | elsewhere action =>
    simp only [step, Option.ite_none_right_eq_some, Option.some.injEq] at stepped
    obtain ⟨leaves, rfl⟩ := stepped
    exact tracked.moved (exec_dispatcher env s.world leaves)
  | dispatch => exact tracked.dispatch stepped

end Steps

theorem start_tracked {w : World} (empty : w.queue = []) :
    (start w).Tracked w.server.dispatcher.config where
  configured := rfl
  bounded := by
    change w.queue.length ≤ w.capacity
    rw [empty]
    exact Nat.zero_le _
  contents := congrArg (List.map some) empty
  history := QueueHistory.empty_conserved
  accepted := rfl
  kept := fun _ => rfl
  stage := .silent trivial (List.nil_sublist _)
  frames := fun member => absurd member List.not_mem_nil

/-- Every accepted message was taken, is queued or was evicted, in the order of
acceptance, and the dispatcher writes in this order. -/
structure Conserved (s : Dispatching) : Prop where
  bounded : (s.world.queue.length : Int) ≤ s.world.server.dispatcher.config.maxStoredMessages
  contents : s.world.queue.map some =
    s.history.queued.map fun number => (s.calls[number]?).map Call.message
  order : s.history.taken ++ s.history.queued =
    (accepted s.calls).filter fun number => number ∉ s.history.evicted
  complete : s.world.server.dispatcher.config.queuePolicy ≠ .dropOldest →
    s.history.taken ++ s.history.queued = accepted s.calls
  increasing : (s.history.taken ++ s.history.queued).Pairwise (· < ·)
  written : (s.frames.map Prod.fst).Sublist s.history.taken
  ordered : (s.frames.map Prod.fst).Pairwise (· < ·)
  frames : ∀ number text, (number, text) ∈ s.frames →
    ∃ call, s.calls[number]? = some call ∧ FrameFor call.message text

/-- A call returns true exactly when its message is the last one queued, and only
the front of a full queue is ever evicted. -/
structure Accounted (s : Dispatching) (move : Move) (after : Dispatching) : Prop where
  returned : ∀ message, move = .queueMessage message →
    ((s.world.queueMessage message).1 = true ↔
      after.history.queued.getLast? = some s.calls.length)
  evicted : after.history.evicted = s.history.evicted ∨
    ∃ number, after.history.evicted = s.history.evicted ++ [number] ∧
      s.history.queued.head? = some number ∧
      (s.world.queue.length : Int) = s.world.server.dispatcher.config.maxStoredMessages

section Results
variable {config : DispatcherConfig} {s : Dispatching}

theorem Tracked.capacity (tracked : s.Tracked config) (least : 1 ≤ config.maxStoredMessages)
    (int : config.maxStoredMessages < 2 ^ 31) : (s.world.capacity : Int) =
      s.world.server.dispatcher.config.maxStoredMessages := by
  rw [World.capacity, Dispatcher.capacity, tracked.configured, sizeOfInt]
  omega

theorem Tracked.written (tracked : s.Tracked config) :
    (s.frames.map Prod.fst).Sublist s.history.taken := by
  rcases tracked.stage with ⟨_, written⟩ | ⟨_, written⟩ | ⟨taken, _, _, written⟩
  · exact written
  · exact written
  · exact taken ▸ written.trans (List.sublist_append_left _ _)

theorem Tracked.conserved (tracked : s.Tracked config) (least : 1 ≤ config.maxStoredMessages)
    (int : config.maxStoredMessages < 2 ^ 31) : s.Conserved := by
  have sublist := tracked.history.sublist
  have increasing := (accepted_ordered s.calls).sublist (tracked.accepted ▸ sublist)
  constructor
  · rw [← tracked.capacity least int]
    exact Int.ofNat_le.mpr tracked.bounded
  · exact tracked.contents
  · rw [tracked.history.order, tracked.accepted]
  · intro policy
    rw [tracked.configured] at policy
    rw [tracked.history.complete (tracked.kept policy), tracked.accepted]
  · exact increasing
  · exact tracked.written
  · exact increasing.sublist (tracked.written.trans (List.sublist_append_left _ _))
  · exact fun _ _ member => tracked.frames member

theorem Tracked.accounted (tracked : s.Tracked config) (least : 1 ≤ config.maxStoredMessages)
    (int : config.maxStoredMessages < 2 ^ 31) {env : Env} {move : Move} {after : Dispatching}
    (stepped : step s (env, move) = some after) : s.Accounted move after := by
  have capacity := tracked.capacity least int
  cases move with
  | queueMessage message =>
    have positive : 0 < s.world.capacity := by
      rw [tracked.configured] at capacity
      omega
    have called := step_called positive tracked.bounded stepped
    have only : ∀ {returned : Bool}, (s.world.queueMessage message).1 = returned →
        (returned = true ↔ after.history.queued.getLast? = some s.calls.length) →
        ∀ other, Move.queueMessage message = .queueMessage other →
        ((s.world.queueMessage other).1 = true ↔
          after.history.queued.getLast? = some s.calls.length) := by
      intro returned result last other named
      cases named
      exact result ▸ last
    generalize result : (s.world.queueMessage message).1 = returned at called
    refine ⟨only result ?_, ?_⟩
    · cases called with
      | room | evicted => exact iff_of_true rfl List.getLast?_concat
      | refused =>
        apply iff_of_false Bool.false_ne_true
        intro last
        have member := tracked.history.sublist.subset
          (List.mem_append_right _ (List.mem_of_getLast? last))
        exact absurd (lt_of_mem_accepted (tracked.accepted ▸ member)) (Nat.lt_irrefl _)
    · cases called with
      | room | refused => exact .inl rfl
      | evicted full =>
        right
        obtain ⟨first, rest, queue⟩ := List.exists_cons_of_length_pos (full ▸ positive)
        have front := tracked.contents
        rw [queue, List.map_cons] at front
        obtain ⟨number, numbers, queued, _⟩ := List.map_eq_cons_iff.mp front.symm
        refine ⟨number, ?_, by rw [queued]; rfl, by rw [full, capacity]⟩
        rw [QueueHistory.accept, QueueHistory.evict, queued]
        rfl
  | elsewhere action =>
    simp only [step, Option.ite_none_right_eq_some, Option.some.injEq] at stepped
    obtain ⟨_, rfl⟩ := stepped
    refine ⟨fun other named => ?_, .inl rfl⟩
    cases named
  | dispatch =>
    refine ⟨fun other named => ?_, .inl ?_⟩
    · cases named
    · simp only [step] at stepped
      split at stepped
      · simp only [Option.ite_none_right_eq_some, Option.some.injEq] at stepped
        obtain ⟨_, rfl⟩ := stepped
        rfl
      · cases stepped
        dsimp only
        split <;> rfl

/-- For every capacity, every policy and every interleaving of calls with the
dispatcher's thread: nothing that was accepted is lost, duplicated or reordered. -/
theorem conserved_in_order {w : World} {labels : List (Env × Move)} (empty : w.queue = [])
    (least : 1 ≤ w.server.dispatcher.config.maxStoredMessages)
    (int : w.server.dispatcher.config.maxStoredMessages < 2 ^ 31)
    (run : Run step Free (start w) labels s) :
    s.Conserved ∧ ∀ env move after, step s (env, move) = some after → s.Accounted move after := by
  have positive : 0 < sizeOfInt w.server.dispatcher.config.maxStoredMessages := by
    rw [sizeOfInt]
    omega
  have tracked := run.invariant (fun held _ stepped => step_tracked positive held stepped)
    (start_tracked empty)
  exact ⟨tracked.conserved least int, fun env move after stepped =>
    tracked.accounted least int stepped⟩

/-- A dispatcher with one place, which drops the oldest message. -/
def onePlace : World :=
  let w := ((System.initial none).world.accept 6 0).registerClient .plain (str "bob") 6
  w.mapServer fun server =>
    { server with dispatcher := ⟨[], { maxStoredMessages := 1, queuePolicy := .dropOldest }⟩ }

/-- The second message evicts the first and is then delivered. -/
theorem conserved_in_order_of_two : ∃ s, s.history.evicted = [0] ∧ s.history.taken = [1] ∧
    s.frames.map Prod.fst = [1] ∧ Conserved s := by
  let hello : Message := ⟨str "ann", str "bob", str "hello", str "first", 0⟩
  let moves : List Move := [.queueMessage hello, .queueMessage { hello with body := str "second" },
    .dispatch, .dispatch, .dispatch, .dispatch]
  obtain ⟨s, ran, evicted, taken, frames⟩ : ∃ s,
      execute step (start onePlace) (moves.map fun move => (.plain, move)) = some s ∧
      s.history.evicted = [0] ∧ s.history.taken = [1] ∧ s.frames.map Prod.fst = [1] :=
    Transition.evaluated (by decide)
  have conserved := (conserved_in_order rfl (by decide) (by decide) (execute_run _ ran)).1
  exact ⟨s, evicted, taken, frames, conserved⟩

end Results

end Dispatching
end SocketMessaging
