import SocketMessaging.Server.DispatcherThread

/-! How the thread of the dispatcher comes to rest: asleep with nothing left to do, or
returned, and then with whatever the queue still holds left where it is. -/
namespace SocketMessaging
open Prog Transition

namespace DispatcherThread
variable {s t : DispatcherThread} {env : Env}

/-- How many steps the thread can take before it sleeps, returns or takes a message. -/
def Left : DispatcherPhase → Nat → Prop
  | .loopHead, left => left = 5
  | .locking, left => left = 4
  | .testing, left => left = 3
  | .parking, left => left = 1
  | .waiting, left => left = 0
  | .checking, left => left = 2
  | .choosing, left => left = 1
  | .delivering _ rest, left => ∃ bound, rest.Within bound ∧ left = bound + 6
  | .returned, left => left = 0

theorem deliver_within (message : Message) : (Dispatcher.deliver message).Within 3 := by
  simp only [Dispatcher.deliver, perform_bind, pure_eq]
  intro recipientSocket
  dsimp only
  split
  · intro senderSocket
    dsimp only
    split
    · exact fun _ => trivial
    · trivial
  · intro sent
    dsimp only
    split
    · exact fun _ => trivial
    · trivial

theorem Left.woken {phase : DispatcherPhase} {left : Nat} (budget : Left phase left) :
    ∃ rest, Left phase.woken rest ∧ rest ≤ left + 4 := by
  cases phase with
  | waiting => exact ⟨4, rfl, Nat.le_add_left _ _⟩
  | _ => exact ⟨left, budget, Nat.le_add_right _ _⟩

theorem Worked.spends {left : Nat} (worked : Worked env s s.phase t) (valid : s.Valid)
    (budget : Left s.phase left) : t.queued = s.queued ∧ ∃ rest, Left t.phase rest ∧
      rest + 9 * t.world.queue.length < left + 9 * s.world.queue.length := by
  have fits := valid.fits
  obtain ⟨phase, here⟩ : ∃ phase, s.phase = phase := ⟨_, rfl⟩
  rw [here] at worked budget fits
  cases worked with
  | entered | acquired | missed | found | slept | went =>
    cases budget
    exact ⟨rfl, _, rfl, Nat.add_lt_add_right (by decide) _⟩
  | left _ _ awake staying =>
    refine ⟨rfl, 0, rfl, Nat.add_lt_add_right ?_ _⟩
    cases phase with
    | waiting => exact absurd rfl awake
    | returned => exact absurd rfl staying
    | delivering =>
      obtain ⟨bound, _, rfl⟩ := budget
      exact Nat.succ_pos _
    | _ =>
      cases budget
      decide
  | empty none => exact absurd none fits.1
  | took front =>
    cases budget
    refine ⟨rfl, 9, ⟨3, deliver_within _, rfl⟩, ?_⟩
    rw [World.queue_setQueue, front, List.length_cons]
    omega
  | @acted message β action next =>
    obtain ⟨bound, within, rfl⟩ := budget
    cases bound with
    | zero => exact within.elim
    | succ bound =>
      refine ⟨rfl, bound + 6, ⟨bound, within _, rfl⟩, ?_⟩
      have same : (exec env action s.world).2.queue = s.world.queue :=
        congrArg Dispatcher.messages (exec_dispatcher env s.world fits.1)
      change _ + 9 * (exec env action s.world).2.queue.length < _
      rw [same]
      omega
  | dealt =>
    obtain ⟨bound, _, rfl⟩ := budget
    refine ⟨rfl, 5, rfl, Nat.add_lt_add_right ?_ _⟩
    omega

def works : DispatcherMove → Bool
  | .work => true
  | _ => false

def wakes : DispatcherMove → Bool
  | .notifyAll | .wakeSpuriously => true
  | _ => false

/-- Each message and each wakeup pays for the steps that it makes necessary. -/
theorem Stepped.spends {move : DispatcherMove} {left : Nat} (stepped : Stepped env s move t)
    (valid : s.Valid) (budget : Left s.phase left) : ∃ rest, Left t.phase rest ∧
      (works move).toNat + rest + 9 * t.world.queue.length + 13 * s.queued.length ≤
        left + 9 * s.world.queue.length + 13 * t.queued.length + 4 * (wakes move).toNat := by
  cases stepped with
  | @apart _ _ world same =>
    have queue : world.queue = s.world.queue := congrArg Dispatcher.messages same
    refine ⟨left, budget, ?_⟩
    simp only [queue, works, wakes, Bool.toNat_false]
    omega
  | queued =>
    obtain ⟨rest, woken, more⟩ := budget.woken
    refine ⟨rest, woken, ?_⟩
    simp only [World.queue_setQueue, List.length_append, List.length_singleton, works, wakes,
      Bool.toNat_false]
    omega
  | setStop =>
    refine ⟨left, budget, ?_⟩
    simp only [works, wakes, Bool.toNat_false]
    omega
  | notifyAll =>
    obtain ⟨rest, woken, more⟩ := budget.woken
    refine ⟨rest, woken, ?_⟩
    simp only [works, wakes, Bool.toNat_false, Bool.toNat_true]
    omega
  | woke =>
    refine ⟨4, rfl, ?_⟩
    simp only [works, wakes, Bool.toNat_false, Bool.toNat_true]
    omega
  | worked worked =>
    obtain ⟨same, rest, remaining, less⟩ := worked.spends valid budget
    refine ⟨rest, remaining, ?_⟩
    simp only [same, works, wakes, Bool.toNat_false, Bool.toNat_true]
    omega

theorem run_spends {labels : List (Env × DispatcherMove)} {left : Nat} (run : Run step Free s labels t)
    (valid : s.Valid) (budget : Left s.phase left) : ∃ rest, Left t.phase rest ∧
      labels.countP (fun label => works label.2) + rest + 9 * t.world.queue.length +
          13 * s.queued.length ≤
        left + 9 * s.world.queue.length + 13 * t.queued.length +
          4 * labels.countP fun label => wakes label.2 := by
  induction run generalizing left with
  | refl =>
    refine ⟨left, budget, Nat.le_of_eq ?_⟩
    simp
  | @next s between t label labels _ stepped _ ih =>
    obtain ⟨middle, budget, first⟩ := (step_cases valid.rejecting stepped).spends valid budget
    obtain ⟨rest, remaining, later⟩ := ih (step_valid valid stepped) budget
    refine ⟨rest, remaining, ?_⟩
    have one : ∀ b : Bool, (if b = true then 1 else 0) = b.toNat := fun b => by cases b <;> rfl
    simp only [List.countP_cons, one]
    omega

theorem run_valid {labels : List (Env × DispatcherMove)} (run : Run step Free s labels t)
    (valid : s.Valid) : t.Valid :=
  run.invariant (fun valid _ stepped => step_valid valid stepped) valid

/-- A thread that cannot go on by itself sleeps or has returned. -/
theorem resting_phase (resting : s.work env = none) : s.phase = .waiting ∨ s.phase = .returned := by
  unfold work at resting
  split at resting
  case h_5 here => exact .inl here
  case h_7 => split at resting <;> cases resting
  case h_10 here => exact .inr here
  all_goals cases resting

/-- Where the thread comes to rest its wait has nothing left to wait for but messages. -/
theorem Valid.rest (valid : s.Valid) (resting : s.work env = none) (returned : s.toNotify = 0) :
    (s.phase = .waiting ∧ s.running = true ∧ s.handled = s.queued) ∨
    (s.phase = .returned ∧ s.goesOn = false ∧ s.handled ++ s.world.queue = s.queued) := by
  obtain ⟨_, order, fits⟩ := valid
  rcases resting_phase resting with here | here
  · rw [here] at order fits
    refine .inl ⟨here, fits.2.resolve_right ?_, ?_⟩
    · rw [returned]
      exact Nat.lt_irrefl 0
    · rw [fits.1] at order
      exact (List.append_nil _).symm.trans order
  · rw [here] at order fits
    exact .inr ⟨here, fits, order⟩

/-- No message is forgotten. The thread does what the dispatcher does without lock and
waits. It goes through the messages that were taken into the queue in their order, in a
number of steps that these and the wakeups bound; and where it comes to rest, with no
call of `stop` under way, it has dealt with all of them and nobody has called `stop`,
or it has returned because the loop's condition failed. -/
theorem dispatcher_rests {world : World} {labels : List (Env × DispatcherMove)}
    (run : Run step Free (start world) labels s) :
    (∃ coarse d, Run Dispatching.step Free (.start (start world).world) coarse d ∧
      Follows d s) ∧
    s.handled ++ (s.phase.held ++ s.world.queue) = s.queued ∧
    labels.countP (fun label => works label.2) ≤
      5 + 13 * s.queued.length + 4 * labels.countP (fun label => wakes label.2) ∧
    ∀ env, s.work env = none → s.toNotify = 0 →
      (s.phase = .waiting ∧ s.running = true ∧ s.handled = s.queued) ∨
      (s.phase = .returned ∧ s.goesOn = false ∧ s.handled ++ s.world.queue = s.queued) := by
  have valid := run_valid run (start_valid world)
  refine ⟨run_followed run (start_valid world) ⟨rfl, rfl⟩, valid.order, ?_,
    fun env resting returned => valid.rest resting returned⟩
  have budget : Left (start world).phase 5 := rfl
  obtain ⟨rest, _, spent⟩ := run_spends run (start_valid world) budget
  have fresh : (start world).queued = [] ∧ (start world).world.queue = [] := ⟨rfl, rfl⟩
  rw [fresh.1, fresh.2, List.length_nil] at spent
  omega

/-- A message comes while the thread sleeps. -/
theorem dispatcher_rests_of_one : ∃ s : DispatcherThread, s.phase = .waiting ∧
    s.queued = [⟨str "ann", str "bob", str "hello", str "world", 0⟩] ∧ s.handled = s.queued := by
  let moves : List DispatcherMove := List.replicate 4 .work ++
    [.other (.queueMessage ⟨str "ann", str "bob", str "hello", str "world", 0⟩)] ++
    List.replicate 11 .work
  obtain ⟨s, ran, resting, returned, goes, queued⟩ := evaluated
    (o := Transition.execute step (start (System.initial none).world)
      (moves.map fun move => (.plain, move)))
    (P := fun s => (s.work .plain).isNone = true ∧ s.toNotify = 0 ∧ s.goesOn = true ∧
      s.queued = [⟨str "ann", str "bob", str "hello", str "world", 0⟩])
    (by decide)
  obtain ⟨_, _, _, rests⟩ := dispatcher_rests (execute_run _ ran)
  rcases rests .plain (Option.isNone_iff_eq_none.mp resting) returned with asleep | gone
  · exact ⟨s, asleep.1, queued, asleep.2.2⟩
  · rw [gone.2.1] at goes
    cases goes

/-- Once `stop` has set its flag nothing is taken from the queue any more. -/
theorem Stepped.strands {move : DispatcherMove} (stepped : Stepped env s move t) (valid : s.Valid)
    (stopped : s.running = false) : t.running = false ∧ s.world.queue <+: t.world.queue ∧
      t.handled ++ t.phase.held = s.handled ++ s.phase.held := by
  cases stepped with
  | @apart _ _ world same =>
    have queue : world.queue = s.world.queue := congrArg Dispatcher.messages same
    exact ⟨stopped, queue ▸ List.prefix_rfl, rfl⟩
  | queued =>
    refine ⟨stopped, List.prefix_append _ _, ?_⟩
    rw [DispatcherPhase.held_woken]
  | setStop => exact ⟨rfl, List.prefix_rfl, rfl⟩
  | notifyAll =>
    refine ⟨stopped, List.prefix_rfl, ?_⟩
    rw [DispatcherPhase.held_woken]
  | woke asleep =>
    refine ⟨stopped, List.prefix_rfl, ?_⟩
    rw [asleep]
    rfl
  | worked worked =>
    have fits := valid.fits
    obtain ⟨phase, here⟩ : ∃ phase, s.phase = phase := ⟨_, rfl⟩
    rw [here] at worked fits
    rw [here]
    cases worked with
    | entered | acquired | missed | found | slept | went =>
      exact ⟨stopped, List.prefix_rfl, rfl⟩
    | left idle =>
      refine ⟨stopped, List.prefix_rfl, ?_⟩
      rw [idle]
      rfl
    | empty none => exact absurd none fits.1
    | took => cases stopped.symm.trans fits.2
    | @acted message β action next =>
      have same : (exec env action s.world).2.queue = s.world.queue :=
        congrArg Dispatcher.messages (exec_dispatcher env s.world fits.1)
      exact ⟨stopped, same ▸ List.prefix_rfl, rfl⟩
    | dealt => exact ⟨stopped, List.prefix_rfl, List.append_nil _⟩

theorem run_strands {later : List (Env × DispatcherMove)} (run : Run step Free s later t)
    (valid : s.Valid) (stopped : s.running = false) : t.running = false ∧
      s.world.queue <+: t.world.queue ∧ t.handled ++ t.phase.held = s.handled ++ s.phase.held := by
  induction run with
  | refl => exact ⟨stopped, List.prefix_rfl, rfl⟩
  | @next s between t label labels _ stepped _ ih =>
    have taken := (step_cases valid.rejecting stepped).strands valid stopped
    obtain ⟨still, queue, handled⟩ := ih (step_valid valid stepped) taken.1
    exact ⟨still, taken.2.1.trans queue, handled.trans taken.2.2⟩

/-- After `stop` the thread deals at most with the message that it has in hand; what
waits in the queue stays there for good, and so does what is still put into it. The
thread returns, since its wait cannot outlast the call of `stop`. -/
theorem stop_strands {world : World} {labels later : List (Env × DispatcherMove)}
    (run : Run step Free (start world) labels s) (stopped : s.running = false)
    (onward : Run step Free s later t) :
    s.world.queue <+: t.world.queue ∧
    t.handled ++ t.phase.held = s.handled ++ s.phase.held ∧
    ∀ env, t.work env = none → t.toNotify = 0 →
      t.phase = .returned ∧ t.handled = s.handled ++ s.phase.held := by
  have valid := run_valid run (start_valid world)
  obtain ⟨still, queue, handled⟩ := run_strands onward valid stopped
  refine ⟨queue, handled, fun env resting returned => ?_⟩
  rcases (run_valid onward valid).rest resting returned with asleep | gone
  · cases still.symm.trans asleep.2.1
  · refine ⟨gone.1, ?_⟩
    rw [gone.1] at handled
    exact (List.append_nil _).symm.trans handled

/-- `stop` comes while one message is being dealt with and another one waits. -/
theorem stop_strands_of_two : ∃ t : DispatcherThread, t.phase = .returned ∧
    t.handled.length = 1 ∧ t.world.queue.length = 1 := by
  let message : Message := ⟨str "ann", str "bob", str "hello", str "world", 0⟩
  let moves : List DispatcherMove := List.replicate 2 (.other (.queueMessage message)) ++
    List.replicate 5 .work ++ [.setStop]
  let more : List DispatcherMove := .notifyAll :: List.replicate 4 .work
  obtain ⟨s, ran, stopped, one, checked⟩ := evaluated
    (o := Transition.execute step (start (System.initial none).world)
      (moves.map fun move => (.plain, move)))
    (P := fun s => s.running = false ∧ (s.handled ++ s.phase.held).length = 1 ∧
      ((Transition.execute step s (more.map fun move => (.plain, move))).any fun t =>
        (t.work .plain).isNone = true ∧ t.toNotify = 0 ∧ t.world.queue.length = 1) = true)
    (by decide)
  obtain ⟨t, went, resting, returned, left⟩ := evaluated checked
  obtain ⟨_, _, ends⟩ := stop_strands (execute_run _ ran) stopped (execute_run _ went)
  obtain ⟨gone, handled⟩ := ends .plain (Option.isNone_iff_eq_none.mp resting) returned
  exact ⟨t, gone, handled ▸ one, left⟩

end DispatcherThread
end SocketMessaging
