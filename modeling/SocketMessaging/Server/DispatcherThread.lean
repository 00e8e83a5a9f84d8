import SocketMessaging.Server.Conservation

/-! The thread of the dispatcher at the grain of its lock, among any actions of the
other threads; it does what the dispatcher does whose rounds are just actions. The end of the server is not announced to it: only a message, a call
of `stop` or a spurious wakeup brings it out of its wait. -/
namespace SocketMessaging
open Prog Transition

theorem World.popMessage_front {w : World} {message : Message} {rest : List Message}
    (front : w.queue = message :: rest) : w.popMessage = (some message, w.setQueue rest) := by
  have head : w.server.dispatcher.messages.head? = some message := congrArg List.head? front
  have tail : w.server.dispatcher.messages.tail = rest := congrArg List.tail front
  simp only [popMessage, mapServer, head, tail]
  rfl

/-- Where the thread is in `Dispatcher::run`. -/
inductive DispatcherPhase where
  | loopHead
  /-- About to acquire the lock, at first or when the wait has been woken. -/
  | locking
  | testing
  /-- The predicate of the wait was false, and the lock is still held. -/
  | parking
  | waiting
  /-- The wait has returned with the lock held. -/
  | checking
  | choosing
  /-- The lock is released, and this much of the round is left. -/
  | delivering (message : Message) (rest : Handler)
  | returned

namespace DispatcherPhase

def locked : DispatcherPhase → Bool
  | .testing | .parking | .checking | .choosing => true
  | _ => false

def woken : DispatcherPhase → DispatcherPhase
  | .waiting => .locking
  | phase => phase

/-- The message taken from the queue but not yet dealt with. -/
def held : DispatcherPhase → List Message
  | .delivering message _ => [message]
  | _ => []

/-- What is left of the round. -/
def rest : DispatcherPhase → Handler
  | .choosing => Dispatcher.runOnce
  | .delivering _ rest => rest
  | _ => .done ()

@[simp] theorem held_woken (phase : DispatcherPhase) : phase.woken.held = phase.held := by
  cases phase <;> rfl

@[simp] theorem rest_woken (phase : DispatcherPhase) : phase.woken.rest = phase.rest := by
  cases phase <;> rfl

end DispatcherPhase

/-- `toNotify` counts the calls of `stop` that have yet to notify. The last two fields
are a record of the run: what was taken into the queue and what has been dealt with. -/
structure DispatcherThread where
  world : World
  phase : DispatcherPhase := .loopHead
  running : Bool := true
  toNotify : Nat := 0
  queued : List Message := []
  handled : List Message := []

inductive DispatcherMove : Type 1 where
  /-- Another thread performs an action. -/
  | other {β : Type} (action : Action β)
  /-- The body of `stop` up to the end of the scope of its lock. -/
  | setStop
  | notifyAll
  | wakeSpuriously
  | work

namespace DispatcherThread
variable {s t : DispatcherThread} {env : Env}

/-- The condition of the loop. -/
def goesOn (s : DispatcherThread) : Bool :=
  s.running && decide (s.world.server.status = .running)

/-- `notify_one` is called with the lock held, so it is one step with the push. -/
def other (env : Env) (s : DispatcherThread) {β : Type} : Action β → Option DispatcherThread
  | .queueMessage message =>
    if s.phase.locked then none
    else
      let queued := s.world.queueMessage message
      if queued.1 then
        some { s with
          world := queued.2, phase := s.phase.woken, queued := s.queued ++ [message] }
      else some { s with world := queued.2 }
  | .popMessage => none
  | action => some { s with world := (exec env action s.world).2 }

/-- The next step of the thread; `none` while it is asleep or gone. -/
def work (env : Env) (s : DispatcherThread) : Option DispatcherThread :=
  match s.phase with
  | .loopHead => some { s with phase := if s.goesOn then .locking else .returned }
  | .locking => some { s with phase := .testing }
  | .testing =>
    some { s with phase := if s.world.queue.isEmpty && s.goesOn then .parking else .checking }
  | .parking => some { s with phase := .waiting }
  | .waiting => none
  | .checking => some { s with phase := if s.goesOn then .choosing else .returned }
  | .choosing =>
    match s.world.popMessage with
    | (none, _) => some { s with phase := .loopHead }
    | (some message, world) =>
      some { s with world, phase := .delivering message (Dispatcher.deliver message) }
  | .delivering message (.act action next) =>
    let result := exec env action s.world
    some { s with world := result.2, phase := .delivering message (next result.1) }
  | .delivering message (.done ()) =>
    some { s with phase := .loopHead, handled := s.handled ++ [message] }
  | .returned => none

/-- `none` means that the move is not enabled. -/
def step (s : DispatcherThread) (label : Env × DispatcherMove) : Option DispatcherThread :=
  let (env, move) := label
  match move with
  | .other action => s.other env action
  | .setStop =>
    if s.phase.locked then none else some { s with running := false, toNotify := s.toNotify + 1 }
  | .notifyAll =>
    if 0 < s.toNotify then some { s with phase := s.phase.woken, toNotify := s.toNotify - 1 }
    else none
  | .wakeSpuriously =>
    match s.phase with
    | .waiting => some { s with phase := .locking }
    | _ => none
  | .work => s.work env

theorem goesOn_iff : s.goesOn = true ↔ s.running = true ∧ s.world.server.status = .running := by
  rw [goesOn, Bool.and_eq_true, decide_eq_true_iff]

/-- What a step of the thread from a phase does. -/
inductive Worked (env : Env) (s : DispatcherThread) : DispatcherPhase → DispatcherThread → Prop where
  | entered : Worked env s .loopHead { s with phase := .locking }
  | left {phase : DispatcherPhase} : phase.held = [] → phase.rest = .done () →
      phase ≠ .waiting → phase ≠ .returned → s.goesOn = false →
      Worked env s phase { s with phase := .returned }
  | acquired : Worked env s .locking { s with phase := .testing }
  | missed : s.world.queue = [] → s.running = true →
      Worked env s .testing { s with phase := .parking }
  | found : (s.goesOn = true → s.world.queue ≠ []) →
      Worked env s .testing { s with phase := .checking }
  | slept : Worked env s .parking { s with phase := .waiting }
  | went : s.goesOn = true → Worked env s .checking { s with phase := .choosing }
  | empty : s.world.queue = [] → Worked env s .choosing { s with phase := .loopHead }
  | took {message : Message} {rest : List Message} : s.world.queue = message :: rest →
      Worked env s .choosing { s with
        world := s.world.setQueue rest, phase := .delivering message (Dispatcher.deliver message) }
  | acted {message : Message} {β : Type} {action : Action β} {next : β → Handler} :
      Worked env s (.delivering message (.act action next)) { s with
        world := (exec env action s.world).2
        phase := .delivering message (next (exec env action s.world).1) }
  | dealt {message : Message} : Worked env s (.delivering message (.done ()))
      { s with phase := .loopHead, handled := s.handled ++ [message] }

theorem work_cases (worked : s.work env = some t) : Worked env s s.phase t := by
  unfold work at worked
  split at worked
  case h_1 here =>
    cases worked
    rw [here]
    cases goes : s.goesOn with
    | true => exact .entered
    | false => exact .left rfl rfl nofun nofun goes
  case h_2 here =>
    cases worked
    exact here ▸ .acquired
  case h_3 here =>
    cases worked
    rw [here]
    split
    · rename_i idle
      obtain ⟨empty, goes⟩ := Bool.and_eq_true_iff.mp idle
      exact .missed (List.isEmpty_iff.mp empty) (goesOn_iff.mp goes).1
    · rename_i busy
      exact .found fun goes empty => busy (by rw [goes, empty]; rfl)
  case h_4 here =>
    cases worked
    exact here ▸ .slept
  case h_5 => cases worked
  case h_6 here =>
    cases worked
    rw [here]
    cases goes : s.goesOn with
    | true => exact .went goes
    | false => exact .left rfl rfl nofun nofun goes
  case h_7 here =>
    rw [here]
    cases front : s.world.queue with
    | nil =>
      have head : s.world.server.dispatcher.messages.head? = none := congrArg List.head? front
      simp only [World.popMessage, head] at worked
      cases worked
      exact .empty front
    | cons message rest =>
      rw [World.popMessage_front front] at worked
      cases worked
      exact .took front
  case h_8 here =>
    cases worked
    exact here ▸ .acted
  case h_9 here =>
    cases worked
    exact here ▸ .dealt
  case h_10 => cases worked

/-- What an enabled move does. -/
inductive Stepped (env : Env) (s : DispatcherThread) : DispatcherMove → DispatcherThread → Prop where
  | apart {β : Type} {action : Action β} {world : World} :
      world.server.dispatcher = s.world.server.dispatcher →
      (world.server.status = .running → s.world.server.status = .running) →
      Stepped env s (.other action) { s with world }
  | queued {message : Message} : s.phase.locked = false →
      Stepped env s (.other (.queueMessage message)) { s with
        world := s.world.setQueue (s.world.queue ++ [message])
        phase := s.phase.woken
        queued := s.queued ++ [message] }
  | setStop : s.phase.locked = false →
      Stepped env s .setStop { s with running := false, toNotify := s.toNotify + 1 }
  | notifyAll : 0 < s.toNotify →
      Stepped env s .notifyAll { s with phase := s.phase.woken, toNotify := s.toNotify - 1 }
  | woke : s.phase = .waiting → Stepped env s .wakeSpuriously { s with phase := .locking }
  | worked {after : DispatcherThread} : Worked env s s.phase after → Stepped env s .work after

theorem other_cases {β : Type} {action : Action β} (rejecting : s.world.Rejecting)
    (acted : s.other env action = some t) : Stepped env s (.other action) t := by
  have apart : action.leavesQueue = true →
      t = { s with world := (exec env action s.world).2 } → Stepped env s (.other action) t :=
    fun leaves same => same ▸ .apart (exec_dispatcher env s.world leaves) running_of_exec
  cases action with
  | queueMessage message =>
    unfold other at acted
    simp only [World.queueMessage_eq rejecting] at acted
    split at acted
    · cases acted
    · rename_i unlocked
      rw [Bool.not_eq_true] at unlocked
      by_cases room : s.world.queue.length < s.world.capacity
      · simp only [BoundedQueue.push_room room, if_true] at acted
        cases acted
        exact .queued unlocked
      · simp only [BoundedQueue.push_full (Nat.not_lt.mp room), Bool.false_eq_true,
          if_false] at acted
        cases acted
        exact .apart rfl id
  | popMessage => cases acted
  | _ => exact apart rfl (Option.some.inj acted).symm

theorem step_cases {move : DispatcherMove} (rejecting : s.world.Rejecting)
    (stepped : step s (env, move) = some t) : Stepped env s move t := by
  cases move with
  | other action => exact other_cases rejecting stepped
  | setStop =>
    obtain ⟨unlocked, same⟩ := Option.ite_none_left_eq_some.mp stepped
    cases same
    exact .setStop (Bool.not_eq_true _ ▸ unlocked)
  | notifyAll =>
    obtain ⟨pending, same⟩ := Option.ite_none_right_eq_some.mp stepped
    cases same
    exact .notifyAll pending
  | wakeSpuriously =>
    unfold step at stepped
    dsimp only at stepped
    split at stepped
    · rename_i asleep
      cases stepped
      exact .woke asleep
    · cases stepped
  | work => exact .worked (work_cases stepped)

/-- What the thread has found out in its phase still holds. -/
def Fits (s : DispatcherThread) : DispatcherPhase → Prop
  | .parking => s.world.queue = [] ∧ s.running = true
  | .waiting => s.world.queue = [] ∧ (s.running = true ∨ 0 < s.toNotify)
  | .checking => s.goesOn = true → s.world.queue ≠ []
  | .choosing => s.world.queue ≠ [] ∧ s.running = true
  | .delivering _ rest => rest.Only fun action => action.leavesQueue = true
  | .returned => s.goesOn = false
  | .loopHead | .locking | .testing => True

structure Valid (s : DispatcherThread) : Prop where
  rejecting : s.world.Rejecting
  order : s.handled ++ (s.phase.held ++ s.world.queue) = s.queued
  fits : s.Fits s.phase

/-- The end of the server, and calls that do not change the queue. -/
theorem Fits.mono {phase : DispatcherPhase} (fits : s.Fits phase)
    (queue : t.world.queue = s.world.queue) (running : t.running = s.running)
    (pending : t.toNotify = s.toNotify) (falls : t.goesOn = true → s.goesOn = true) :
    t.Fits phase := by
  cases phase with
  | parking | choosing =>
    refine ⟨?_, running.trans fits.2⟩
    rw [queue]
    exact fits.1
  | waiting =>
    refine ⟨queue.trans fits.1, ?_⟩
    rw [running, pending]
    exact fits.2
  | checking =>
    intro goes
    rw [queue]
    exact fits (falls goes)
  | delivering => exact fits
  | returned =>
    apply Bool.eq_false_iff.mpr
    exact fun goes => Bool.eq_false_iff.mp fits (falls goes)
  | loopHead | locking | testing => trivial

/-- Outside the lock the thread relies on little, and on nothing once it is woken. -/
theorem Fits.woken {phase : DispatcherPhase} (fits : s.Fits phase) (unlocked : phase.locked = false)
    (falls : t.goesOn = true → s.goesOn = true) : t.Fits phase.woken := by
  cases phase with
  | testing | parking | checking | choosing => cases unlocked
  | waiting | loopHead | locking => trivial
  | delivering => exact fits
  | returned =>
    apply Bool.eq_false_iff.mpr
    exact fun goes => Bool.eq_false_iff.mp fits (falls goes)

theorem deliver_leaves (message : Message) :
    (Dispatcher.deliver message).Only fun action => action.leavesQueue = true := by
  simp only [Dispatcher.deliver, perform_bind, pure_eq, only_act, only_ite, only_done,
    only_perform, implies_true, and_true]
  exact ⟨rfl, fun _ => ⟨fun _ => ⟨rfl, fun _ _ => rfl⟩, fun _ => ⟨rfl, fun _ _ => rfl⟩⟩⟩

theorem goesOn_apart {world : World}
    (falls : world.server.status = .running → s.world.server.status = .running) :
    { s with world }.goesOn = true → s.goesOn = true := by
  intro goes
  obtain ⟨running, status⟩ := goesOn_iff.mp goes
  exact goesOn_iff.mpr ⟨running, falls status⟩

theorem Worked.valid (worked : Worked env s s.phase t) (valid : s.Valid) : t.Valid := by
  obtain ⟨rejecting, order, fits⟩ := valid
  obtain ⟨phase, here⟩ : ∃ phase, s.phase = phase := ⟨_, rfl⟩
  rw [here] at worked order fits
  cases worked with
  | entered | acquired => exact ⟨rejecting, order, trivial⟩
  | left idle _ _ _ ended =>
    rw [idle] at order
    exact ⟨rejecting, order, ended⟩
  | missed empty running => exact ⟨rejecting, order, empty, running⟩
  | found some => exact ⟨rejecting, order, some⟩
  | slept => exact ⟨rejecting, order, fits.1, .inl fits.2⟩
  | went goes => exact ⟨rejecting, order, fits goes, (goesOn_iff.mp goes).1⟩
  | empty none => exact absurd none fits.1
  | took front =>
    refine ⟨rejecting, ?_, deliver_leaves _⟩
    rw [front] at order
    exact order
  | @acted message β action next =>
    have same := exec_dispatcher env s.world fits.1
    refine ⟨?_, ?_, fits.2 _⟩
    · rw [World.Rejecting, same]
      exact rejecting
    · change s.handled ++ ([message] ++ (exec env action s.world).2.queue) = s.queued
      rw [World.queue, same]
      exact order
  | dealt =>
    refine ⟨rejecting, ?_, trivial⟩
    rw [← order, List.append_assoc]
    rfl

theorem Stepped.valid {move : DispatcherMove} (stepped : Stepped env s move t) (valid : s.Valid) :
    t.Valid := by
  obtain ⟨rejecting, order, fits⟩ := valid
  cases stepped with
  | @apart _ _ world same falls =>
    have queue : world.queue = s.world.queue := congrArg Dispatcher.messages same
    refine ⟨?_, ?_, fits.mono queue rfl rfl (goesOn_apart falls)⟩
    · rw [World.Rejecting, same]
      exact rejecting
    · rw [← order, ← queue]
  | queued unlocked =>
    refine ⟨rejecting, ?_, fits.woken unlocked id⟩
    rw [DispatcherPhase.held_woken, World.queue_setQueue, ← order]
    simp only [List.append_assoc]
  | setStop unlocked =>
    refine ⟨rejecting, order, ?_⟩
    change Fits _ s.phase
    generalize s.phase = phase at fits unlocked
    cases phase with
    | testing | parking | checking | choosing => cases unlocked
    | waiting => exact ⟨fits.1, .inr (Nat.succ_pos _)⟩
    | delivering => exact fits
    | returned | loopHead | locking => first | rfl | trivial
  | notifyAll =>
    refine ⟨rejecting, ?_, ?_⟩
    · rw [DispatcherPhase.held_woken]
      exact order
    · change Fits _ s.phase.woken
      generalize s.phase = phase at fits
      cases phase with
      | waiting => trivial
      | _ => exact fits
  | woke asleep =>
    rw [asleep] at order
    exact ⟨rejecting, order, trivial⟩
  | worked worked => exact worked.valid ⟨rejecting, order, fits⟩

/-- The dispatcher of a server that has just been started. -/
def start (world : World) : DispatcherThread where
  world := world.mapServer fun server =>
    { server with dispatcher := { messages := [], config := {} } }

theorem start_valid (world : World) : (start world).Valid := ⟨rfl, rfl, trivial⟩

theorem step_valid {label : Env × DispatcherMove} (valid : s.Valid)
    (stepped : step s label = some t) : t.Valid :=
  (step_cases valid.rejecting stepped).valid valid

/-- The dispatcher without its lock is as far as the thread. -/
def Follows (d : Dispatching) (s : DispatcherThread) : Prop :=
  d.world = s.world ∧ d.rest = s.phase.rest

theorem Worked.followed {d : Dispatching} (worked : Worked env s s.phase t) (valid : s.Valid)
    (follows : Follows d s) : ∃ labels after, Run Dispatching.step Free d labels after ∧
      Follows after t := by
  obtain ⟨world, rest⟩ := follows
  have fits := valid.fits
  obtain ⟨phase, here⟩ : ∃ phase, s.phase = phase := ⟨_, rfl⟩
  rw [here] at worked fits rest
  cases worked with
  | entered | acquired | missed | found | slept => exact ⟨[], d, .refl d, world, rest⟩
  | left _ none => exact ⟨[], d, .refl d, world, rest.trans none⟩
  | dealt => exact ⟨[], d, .refl d, world, rest⟩
  | empty none => exact absurd none fits.1
  | went goes =>
    have stepped : Dispatching.step d (env, .dispatch) =
        some { d with rest := Dispatcher.runOnce } := by
      have running : d.world.server.status = .running := by
        rw [world]
        exact (goesOn_iff.mp goes).2
      have idle : d.rest = .done () := rest
      simp only [Dispatching.step, idle, running, if_true]
    exact ⟨_, _, .single trivial stepped, world, rfl⟩
  | @took message messages front =>
    obtain ⟨after, stepped, same, left⟩ : ∃ after, Dispatching.step d (env, .dispatch) = some after ∧
        after.world = s.world.setQueue messages ∧ after.rest = Dispatcher.deliver message := by
      have chosen : d.rest = Dispatcher.runOnce := rest
      simp only [Dispatching.step, chosen, Dispatcher.runOnce, perform_bind, exec, world,
        World.popMessage_front front]
      exact ⟨_, rfl, rfl, rfl⟩
    exact ⟨_, after, .single trivial stepped, same, left⟩
  | @acted message β action next =>
    obtain ⟨after, stepped, same, left⟩ : ∃ after, Dispatching.step d (env, .dispatch) = some after ∧
        after.world = (exec env action s.world).2 ∧
        after.rest = next (exec env action s.world).1 := by
      have doing : d.rest = .act action next := rest
      simp only [Dispatching.step, doing, world]
      exact ⟨_, rfl, rfl, rfl⟩
    exact ⟨_, after, .single trivial stepped, same, left⟩

theorem other_followed {d : Dispatching} {β : Type} {action : Action β}
    (acted : s.other env action = some t) (follows : Follows d s) :
    ∃ labels after, Run Dispatching.step Free d labels after ∧ Follows after t := by
  obtain ⟨world, rest⟩ := follows
  have elsewhere : action.leavesQueue = true → t = { s with world := (exec env action s.world).2 } →
      ∃ labels after, Run Dispatching.step Free d labels after ∧ Follows after t := by
    intro leaves same
    have stepped : Dispatching.step d (env, .elsewhere action) =
        some { d with world := (exec env action d.world).2 } := by
      simp only [Dispatching.step, leaves, if_true]
    refine ⟨_, _, .single trivial stepped, ?_, ?_⟩
    · rw [same, world]
    · rw [same]
      exact rest
  cases action with
  | queueMessage message =>
    refine ⟨[(env, .queueMessage message)], _, .single trivial rfl, ?_⟩
    unfold other at acted
    dsimp only at acted
    split at acted
    · cases acted
    · split at acted
      · cases acted
        exact ⟨by rw [world], rest.trans (DispatcherPhase.rest_woken _).symm⟩
      · cases acted
        exact ⟨by rw [world], rest⟩
  | popMessage => cases acted
  | _ => exact elsewhere rfl (Option.some.inj acted).symm

theorem step_followed {d : Dispatching} {label : Env × DispatcherMove} (valid : s.Valid)
    (stepped : step s label = some t) (follows : Follows d s) :
    ∃ labels after, Run Dispatching.step Free d labels after ∧ Follows after t := by
  obtain ⟨env, move⟩ := label
  cases move with
  | other action => exact other_followed stepped follows
  | work => exact (work_cases stepped).followed valid follows
  | setStop =>
    obtain ⟨_, same⟩ := Option.ite_none_left_eq_some.mp stepped
    cases same
    exact ⟨[], d, .refl d, follows⟩
  | notifyAll =>
    obtain ⟨_, same⟩ := Option.ite_none_right_eq_some.mp stepped
    cases same
    exact ⟨[], d, .refl d, follows.1, follows.2.trans (DispatcherPhase.rest_woken _).symm⟩
  | wakeSpuriously =>
    unfold step at stepped
    dsimp only at stepped
    split at stepped
    · rename_i asleep
      cases stepped
      obtain ⟨world, rest⟩ := follows
      rw [asleep] at rest
      exact ⟨[], d, .refl d, world, rest⟩
    · cases stepped

/-- Its lock, its waits and its flag do not change what the dispatcher does. -/
theorem run_followed {labels : List (Env × DispatcherMove)} {d : Dispatching}
    (run : Run step Free s labels t) (valid : s.Valid) (follows : Follows d s) :
    ∃ labels after, Run Dispatching.step Free d labels after ∧ Follows after t := by
  induction run generalizing d with
  | refl => exact ⟨[], d, .refl d, follows⟩
  | next _ stepped _ ih =>
    obtain ⟨first, between, run, follows⟩ := step_followed valid stepped follows
    obtain ⟨later, after, onward, follows⟩ := ih (step_valid valid stepped) follows
    exact ⟨first ++ later, after, run.trans onward, follows⟩

/-- A round that nobody interrupts. -/
theorem round_run (env : Env) {message : Message} {rest : List Message} (chosen : s.phase = .choosing)
    (front : s.world.queue = message :: rest) : ∃ labels, Run step Free s labels { s with
      world := (Dispatcher.runOnce.run (exec env) s.world).2
      phase := .loopHead
      handled := s.handled ++ [message] } := by
  have delivered : ∀ (program : Handler) (t : DispatcherThread),
      t.phase = .delivering message program → ∃ labels, Run step Free t labels { t with
        world := (program.run (exec env) t.world).2
        phase := .loopHead
        handled := t.handled ++ [message] } := by
    intro program
    induction program with
    | done =>
      intro t here
      have stepped : step t (env, .work) =
          some { t with phase := .loopHead, handled := t.handled ++ [message] } := by
        change t.work env = _
        unfold work
        simp only [here]
      exact ⟨_, .single trivial stepped⟩
    | act action next ih =>
      intro t here
      let after : DispatcherThread := { t with
        world := (exec env action t.world).2
        phase := .delivering message (next (exec env action t.world).1) }
      have stepped : step t (env, .work) = some after := by
        change t.work env = _
        unfold work
        simp only [here, after]
      obtain ⟨labels, rest⟩ := ih _ after rfl
      exact ⟨_, .next trivial stepped rest⟩
  let taken : DispatcherThread := { s with
    world := s.world.setQueue rest, phase := .delivering message (Dispatcher.deliver message) }
  have stepped : step s (env, .work) = some taken := by
    change s.work env = _
    unfold work
    simp only [chosen, World.popMessage_front front]
    rfl
  obtain ⟨labels, later⟩ := delivered _ taken rfl
  rw [Dispatcher.runOnce_run front]
  exact ⟨_, .next trivial stepped later⟩

end DispatcherThread
end SocketMessaging
