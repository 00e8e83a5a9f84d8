import SocketMessaging.Library.Runs
import SocketMessaging.Library.WorkerPool

/-! The thread pool, with the steps of its workers and of its destructor. The flag
`stop` is read without the lock, and a worker that comes to the head of its loop once
it is set returns whatever the queue holds. So the destructor does not wait for all
tasks: after `stop` only the workers already past the head of the loop take one each. -/
namespace SocketMessaging
open Transition

/-- Where a worker is in `workerThread`. -/
inductive WorkerPhase (T : Type) where
  | loopHead
  /-- About to acquire the lock, at first or when the wait has been woken. -/
  | locking
  | testing
  /-- The predicate of the wait was false, and the lock is still held. -/
  | parking
  | waiting
  /-- The wait has returned with the lock held. -/
  | chosen
  /-- The lock is released. No task means an empty `std::function`. -/
  | holding (task : Option T)
  | returned
  deriving DecidableEq

inductive Destruction where
  | notBegun
  | notifying
  | joining (joined : Nat)
  deriving DecidableEq

/-- `queueMutex` is the worker that holds the lock; `enqueue` releases it in the step
that acquires it. `toNotify` counts the calls of `enqueue` that have yet to notify.
The last three fields are a record of the run: what was enqueued, what workers took
from the queue, and what has been run. -/
structure ThreadPool (T : Type) where
  workers : List (WorkerPhase T)
  tasks : List T := []
  queueMutex : Option Nat := none
  stop : Bool := false
  destructor : Destruction := .notBegun
  toNotify : Nat := 0
  enqueued : List T := []
  taken : List T := []
  ran : List T := []
  deriving DecidableEq

namespace WorkerPhase
variable {T : Type}

/-- Past the head of the loop, and without a task as yet. -/
def engaged : WorkerPhase T → Bool
  | .locking | .testing | .parking | .waiting | .chosen => true
  | .loopHead | .holding _ | .returned => false

def task : WorkerPhase T → Option T
  | .holding task => task
  | _ => none

def held (phase : WorkerPhase T) : List T := phase.task.toList

end WorkerPhase

namespace ThreadPool
variable {T : Type} {s t u : ThreadPool T} {k : Nat} {phase next : WorkerPhase T}

def start (numThreads : Nat) : ThreadPool T where
  workers := List.replicate numThreads .loopHead

def put (s : ThreadPool T) (k : Nat) (phase : WorkerPhase T) : ThreadPool T :=
  { s with workers := s.workers.set k phase }

inductive Move (T : Type) where
  /-- The body of `enqueue` up to the end of the scope of its lock. -/
  | enqueue (task : T)
  /-- The `notify_one` of a call of `enqueue`. -/
  | notifyOne (worker : Option Nat)
  | wakeSpuriously (worker : Nat)
  | work (worker : Nat)
  | setStop
  | notifyAll
  | join
  deriving DecidableEq

/-- The next step of worker `k`; `none` while it is blocked, asleep or gone. -/
def work (s : ThreadPool T) (k : Nat) : WorkerPhase T → Option (ThreadPool T)
  | .loopHead => some (s.put k (if s.stop then .returned else .locking))
  | .locking =>
    if s.queueMutex = none then some { s.put k .testing with queueMutex := some k } else none
  | .testing => some (s.put k (if s.stop || !s.tasks.isEmpty then .chosen else .parking))
  | .parking => some { s.put k .waiting with queueMutex := none }
  | .waiting => none
  | .chosen =>
    if s.stop && s.tasks.isEmpty then some { s.put k .returned with queueMutex := none }
    else some { s.put k (.holding s.tasks.head?) with
      queueMutex := none, tasks := s.tasks.tail, taken := s.taken ++ s.tasks.head?.toList }
  | .holding task => some { s.put k .loopHead with ran := s.ran ++ task.toList }
  | .returned => none

def wake (s : ThreadPool T) (k : Nat) : Option (ThreadPool T) :=
  match s.workers[k]? with
  | some .waiting => some (s.put k .locking)
  | _ => none

def wakePhase : WorkerPhase T → WorkerPhase T
  | .waiting => .locking
  | phase => phase

/-- `none` means that the move is not enabled. All calls of `enqueue` are over when
the destructor begins. -/
def step (s : ThreadPool T) : Move T → Option (ThreadPool T)
  | .enqueue task =>
    if s.queueMutex = none ∧ s.destructor = .notBegun then
      some { s with
        tasks := s.tasks ++ [task], toNotify := s.toNotify + 1, enqueued := s.enqueued ++ [task] }
    else none
  | .notifyOne worker =>
    if 0 < s.toNotify then
      match worker with
      | some k => { s with toNotify := s.toNotify - 1 }.wake k
      | none =>
        -- The notification is lost only if nobody waits for it.
        if s.workers.all fun phase => !(phase matches .waiting) then
          some { s with toNotify := s.toNotify - 1 }
        else none
    else none
  | .wakeSpuriously k => s.wake k
  | .work k => s.workers[k]?.bind (s.work k)
  | .setStop =>
    if s.destructor = .notBegun ∧ s.toNotify = 0 then
      some { s with stop := true, destructor := .notifying }
    else none
  | .notifyAll =>
    if s.destructor = .notifying then
      some { s with workers := s.workers.map wakePhase, destructor := .joining 0 }
    else none
  | .join =>
    match s.destructor with
    | .joining joined =>
      if s.workers[joined]? matches some .returned then
        some { s with destructor := .joining (joined + 1) }
      else none
    | _ => none

/-- What a step of worker `k` from a phase does. -/
inductive Worked (s : ThreadPool T) (k : Nat) : WorkerPhase T → ThreadPool T → Prop where
  /-- Nothing is taken and nothing run. Once `stop` is set no worker is engaged any more. -/
  | moved {phase next : WorkerPhase T} {queueMutex : Option Nat} : phase ≠ .returned →
      phase.held = [] → next.held = [] → (s.stop = true → next.engaged = phase.engaged) →
      Worked s k phase { s.put k next with queueMutex }
  | left : s.stop = true → s.tasks = [] →
      Worked s k .chosen { s.put k .returned with queueMutex := none }
  | took : (s.stop = true → s.tasks ≠ []) → Worked s k .chosen { s.put k (.holding s.tasks.head?) with
      queueMutex := none, tasks := s.tasks.tail, taken := s.taken ++ s.tasks.head?.toList }
  | finished (task : Option T) : Worked s k (.holding task)
      { s.put k .loopHead with ran := s.ran ++ task.toList }

theorem work_cases (worked : s.work k phase = some t) : Worked s k phase t := by
  cases phase with
  | loopHead =>
    cases Option.some.inj worked
    cases stop : s.stop with
    | false => exact .moved nofun rfl rfl (by simp [stop])
    | true => exact .moved nofun rfl rfl fun _ => rfl
  | locking =>
    obtain ⟨_, same⟩ := Option.ite_none_right_eq_some.mp worked
    cases same
    exact .moved nofun rfl rfl fun _ => rfl
  | testing =>
    cases Option.some.inj worked
    cases s.stop || !s.tasks.isEmpty with
    | false => exact .moved nofun rfl rfl fun _ => rfl
    | true => exact .moved nofun rfl rfl fun _ => rfl
  | parking =>
    cases Option.some.inj worked
    exact .moved nofun rfl rfl fun _ => rfl
  | waiting => cases worked
  | chosen =>
    simp only [work] at worked
    split at worked
    · rename_i ended
      cases Option.some.inj worked
      rw [Bool.and_eq_true, List.isEmpty_iff] at ended
      exact .left ended.1 ended.2
    · rename_i more
      cases Option.some.inj worked
      rw [Bool.and_eq_true, List.isEmpty_iff, not_and] at more
      exact .took more
  | holding task =>
    cases Option.some.inj worked
    exact .finished task
  | returned => cases worked

/-- What an enabled move does. -/
inductive Stepped (s : ThreadPool T) : Move T → ThreadPool T → Prop where
  | enqueue {task : T} : s.destructor = .notBegun → Stepped s (.enqueue task) { s with
      tasks := s.tasks ++ [task], toNotify := s.toNotify + 1, enqueued := s.enqueued ++ [task] }
  | lost {toNotify : Nat} : Stepped s (.notifyOne none) { s with toNotify }
  | notified {k toNotify : Nat} : s.workers[k]? = some .waiting →
      Stepped s (.notifyOne (some k)) { s.put k .locking with toNotify }
  | woken {k : Nat} : s.workers[k]? = some .waiting →
      Stepped s (.wakeSpuriously k) (s.put k .locking)
  | work {k : Nat} {phase : WorkerPhase T} {t : ThreadPool T} : s.workers[k]? = some phase →
      Worked s k phase t → Stepped s (.work k) t
  | setStop : s.destructor = .notBegun →
      Stepped s .setStop { s with stop := true, destructor := .notifying }
  | notifyAll : s.destructor = .notifying →
      Stepped s .notifyAll { s with workers := s.workers.map wakePhase, destructor := .joining 0 }
  | join {joined : Nat} : s.destructor = .joining joined → s.workers[joined]? = some .returned →
      Stepped s .join { s with destructor := .joining (joined + 1) }

theorem wake_eq_some (woken : s.wake k = some t) :
    s.workers[k]? = some .waiting ∧ t = s.put k .locking := by
  unfold wake at woken
  split at woken
  · rename_i asleep
    exact ⟨asleep, (Option.some.inj woken).symm⟩
  · cases woken

theorem step_cases {move : Move T} (stepped : s.step move = some t) : Stepped s move t := by
  cases move with
  | enqueue task =>
    obtain ⟨⟨_, alive⟩, same⟩ := Option.ite_none_right_eq_some.mp stepped
    cases same
    exact .enqueue alive
  | notifyOne worker =>
    obtain ⟨_, stepped⟩ := Option.ite_none_right_eq_some.mp stepped
    cases worker with
    | none =>
      obtain ⟨_, same⟩ := Option.ite_none_right_eq_some.mp stepped
      cases same
      exact .lost
    | some k =>
      obtain ⟨asleep, rfl⟩ := wake_eq_some stepped
      exact .notified asleep
  | wakeSpuriously k =>
    obtain ⟨asleep, rfl⟩ := wake_eq_some stepped
    exact .woken asleep
  | work k =>
    obtain ⟨phase, at_, worked⟩ := Option.bind_eq_some_iff.mp stepped
    exact .work at_ (work_cases worked)
  | setStop =>
    obtain ⟨⟨alive, _⟩, same⟩ := Option.ite_none_right_eq_some.mp stepped
    cases same
    exact .setStop alive
  | notifyAll =>
    obtain ⟨notifying, same⟩ := Option.ite_none_right_eq_some.mp stepped
    cases same
    exact .notifyAll notifying
  | join =>
    simp only [step] at stepped
    split at stepped
    · rename_i joining
      obtain ⟨gone, same⟩ := Option.ite_none_right_eq_some.mp stepped
      cases same
      split at gone
      · rename_i returned
        exact .join joining returned
      · cases gone
    · cases stepped

/-- The pool as its users see it: which tasks wait and which one each worker runs. -/
def pool (s : ThreadPool T) : WorkerPool T := ⟨s.tasks, s.workers.map WorkerPhase.task⟩

/-- How many workers are engaged. -/
def engaged (s : ThreadPool T) : Nat := s.workers.countP WorkerPhase.engaged

/-- What workers have taken and not yet run. -/
def held (s : ThreadPool T) : List T := s.workers.flatMap WorkerPhase.held

theorem workers_put (here : s.workers[k]? = some phase) : ∃ left right,
    s.workers = left ++ phase :: right ∧
      ∀ next, (s.put k next).workers = left ++ next :: right := by
  obtain ⟨inside, here⟩ := List.getElem?_eq_some_iff.mp here
  refine ⟨s.workers.take k, s.workers.drop (k + 1), ?_, fun next => ?_⟩
  · rw [← here, List.getElem_cons_drop, List.take_append_drop]
  · rw [put, List.set_eq_take_append_cons_drop, if_pos inside]

theorem engaged_put (here : s.workers[k]? = some phase) (next : WorkerPhase T) :
    (s.put k next).engaged + phase.engaged.toNat = s.engaged + next.engaged.toNat := by
  obtain ⟨left, right, before, after⟩ := workers_put here
  rw [engaged, engaged, after, before, List.countP_append, List.countP_append, List.countP_cons,
    List.countP_cons]
  cases phase.engaged <;> cases next.engaged <;> simp <;> omega

theorem held_put (here : s.workers[k]? = some phase) (next : WorkerPhase T) :
    ((s.put k next).held ++ phase.held).Perm (s.held ++ next.held) := by
  obtain ⟨left, right, before, after⟩ := workers_put here
  have swap (own other between : List T) :
      (own ++ (between ++ other)).Perm (other ++ (between ++ own)) :=
    calc (own ++ (between ++ other)).Perm ((between ++ other) ++ own) := List.perm_append_comm
      _ = between ++ (other ++ own) := List.append_assoc ..
      _ |>.Perm ((other ++ own) ++ between) := List.perm_append_comm
      _ = other ++ (own ++ between) := List.append_assoc ..
      _ |>.Perm (other ++ (between ++ own)) := List.perm_append_comm.append_left other
  simp only [held, after, before, List.flatMap_append, List.flatMap_cons, List.append_assoc]
  exact (swap next.held phase.held _).append_left _

theorem engaged_wake (workers : List (WorkerPhase T)) :
    (workers.map wakePhase).countP WorkerPhase.engaged = workers.countP WorkerPhase.engaged := by
  rw [List.countP_map]
  apply List.countP_congr
  intro phase _
  cases phase <;> exact Iff.rfl

theorem held_wake (workers : List (WorkerPhase T)) :
    (workers.map wakePhase).flatMap WorkerPhase.held = workers.flatMap WorkerPhase.held := by
  rw [List.flatMap_map]
  apply List.flatMap_congr
  intro phase _
  cases phase <;> rfl

theorem pool_put (here : s.workers[k]? = some phase) (next : WorkerPhase T)
    (same : next.task = phase.task) :
    (s.put k next).pool = s.pool := by
  obtain ⟨left, right, before, after⟩ := workers_put here
  change WorkerPool.mk s.tasks _ = WorkerPool.mk s.tasks _
  rw [after, before, List.map_append, List.map_append, List.map_cons, List.map_cons, same]

/-- Once a worker has run its task, none of the others runs it again. -/
theorem pool_finished [DecidableEq T] {task : T}
    (here : s.workers[k]? = some (.holding (some task))) :
    task ∈ s.pool.running ∧
      (s.pool.unfinished.Nodup → (s.put k .loopHead).pool = s.pool.finish task) := by
  obtain ⟨left, right, before, after⟩ := workers_put here
  have split : s.pool.workers = left.map WorkerPhase.task ++ some task :: right.map WorkerPhase.task := by
    rw [pool, before, List.map_append, List.map_cons]
    rfl
  constructor
  · apply List.reduceOption_mem_iff.mpr
    rw [split]
    exact List.mem_append_right _ List.mem_cons_self
  · intro distinct
    rw [WorkerPool.unfinished, WorkerPool.running, split, List.reduceOption_append,
      List.reduceOption_cons_of_some] at distinct
    have others := (List.nodup_middle.mp (List.nodup_append.mp distinct).1)
    rw [← List.reduceOption_append, List.nodup_cons, List.reduceOption_mem_iff] at others
    have kept : ∀ worker ∈ left.map WorkerPhase.task ++ right.map WorkerPhase.task,
        worker.filter (fun other => decide (other ≠ task)) = worker := by
      intro worker member
      cases worker with
      | none => rfl
      | some other =>
        refine Option.filter_some_pos (decide_eq_true ?_)
        rintro rfl
        exact others.1 member
    have drop : (some task).filter (fun other => decide (other ≠ task)) = none := by simp
    have parts := List.map_congr_left kept
    rw [List.map_id', List.map_append] at parts
    obtain ⟨leftKept, rightKept⟩ := List.append_inj parts (List.length_map ..)
    rw [WorkerPool.finish, split, List.map_append, List.map_cons, leftKept, rightKept, drop, pool,
      after, List.map_append, List.map_cons]
    rfl

/-- For distinct tasks a step of a worker is one of the abstract pool, or none. -/
theorem pool_worked [DecidableEq T] (here : s.workers[k]? = some phase) (worked : Worked s k phase t)
    (distinct : s.pool.unfinished.Nodup) : t.pool = s.pool ∨ s.pool.Step t.pool := by
  cases worked with
  | moved _ without still =>
    rw [WorkerPhase.held, Option.toList_eq_nil_iff] at without still
    exact .inl (pool_put here _ (still.trans without.symm))
  | left => exact .inl (pool_put here _ rfl)
  | took =>
    obtain ⟨left, right, before, after⟩ := workers_put here
    cases tasks : s.tasks with
    | nil =>
      have idle := pool_put here (.holding none) rfl
      exact .inl (by simpa [pool, put, tasks] using idle)
    | cons task rest =>
      refine .inr (.take ⟨left.length, WorkerPool.take_eq_some.mpr ?_⟩)
      refine ⟨left.map WorkerPhase.task, right.map WorkerPhase.task, task, rest,
        List.length_map .., ?_, ?_⟩
      · rw [pool, tasks, before, List.map_append, List.map_cons]
        rfl
      · change WorkerPool.mk rest ((s.put k (.holding (some task))).workers.map _) = _
        rw [after, List.map_append, List.map_cons]
        rfl
  | finished task =>
    cases task with
    | none => exact .inl (pool_put here _ rfl)
    | some task =>
      obtain ⟨runs, same⟩ := pool_finished here
      have finished : (s.put k .loopHead).pool = s.pool.finish task := same distinct
      exact .inr (finished ▸ .finish runs)

theorem pool_wake (workers : List (WorkerPhase T)) :
    (workers.map wakePhase).map WorkerPhase.task = workers.map WorkerPhase.task := by
  rw [List.map_map]
  apply List.map_congr_left
  intro phase _
  cases phase <;> rfl

theorem pool_step [DecidableEq T] {move : Move T} (stepped : s.step move = some t)
    (distinct : s.pool.unfinished.Nodup) : t.pool = s.pool ∨ s.pool.Step t.pool := by
  cases step_cases stepped with
  | @enqueue task => exact .inr (.enqueue task)
  | lost | setStop | join => exact .inl rfl
  | notified asleep | woken asleep => exact .inl (pool_put asleep _ rfl)
  | work here worked => exact pool_worked here worked distinct
  | notifyAll => exact .inl (congrArg (WorkerPool.mk s.tasks) (pool_wake s.workers))

theorem running_pool (s : ThreadPool T) : s.pool.running = s.held := by
  simp only [WorkerPool.running, pool, held]
  induction s.workers with
  | nil => rfl
  | cons phase workers ih =>
    rw [List.map_cons, List.flatMap_cons, ← ih]
    cases task : phase.task <;> simp [WorkerPhase.held, task]

/-- What holds of the pool at all times. -/
structure Sound (s : ThreadPool T) : Prop where
  /-- Tasks leave the queue in the order in which they entered it. -/
  order : s.taken ++ s.tasks = s.enqueued
  /-- What has been taken has been run or is about to be. -/
  once : (s.ran ++ s.held).Perm s.taken
  begun : s.destructor ≠ .notBegun → s.stop = true
  gone : ∀ {joined}, s.destructor = .joining joined →
    ∀ j < joined, s.workers[j]? = some .returned

theorem sound_start (numThreads : Nat) : (start numThreads : ThreadPool T).Sound where
  order := rfl
  once := by
    have none : (start numThreads : ThreadPool T).held = [] := by
      apply List.flatMap_eq_nil_iff.mpr
      intro phase member
      rw [List.eq_of_mem_replicate member]
      rfl
    rw [none]
    exact .refl _
  begun := fun begun => absurd rfl begun
  gone := nofun

/-- A worker that moves was not one of those that have been joined. -/
theorem Sound.gone_put (sound : s.Sound) (here : s.workers[k]? = some phase)
    (alive : phase ≠ .returned) {joined : Nat} (joining : s.destructor = .joining joined) :
    ∀ j < joined, (s.put k next).workers[j]? = some .returned := by
  intro j before
  have returned := sound.gone joining j before
  have other : k ≠ j := by
    rintro rfl
    exact alive (Option.some.inj (here.symm.trans returned))
  exact (List.getElem?_set_ne other).trans returned

theorem Sound.put (sound : s.Sound) (here : s.workers[k]? = some phase) (next : WorkerPhase T)
    (alive : phase ≠ .returned) (without : phase.held = []) (still : next.held = []) :
    (s.put k next).Sound where
  order := sound.order
  once := by
    have same := held_put here next
    rw [without, still, List.append_nil, List.append_nil] at same
    exact (same.append_left _).trans sound.once
  begun := sound.begun
  gone := sound.gone_put here alive

theorem Sound.worked (sound : s.Sound) (here : s.workers[k]? = some phase)
    (worked : Worked s k phase t) : t.Sound := by
  cases worked with
  | moved alive without still =>
    have kept := sound.put here _ alive without still
    exact ⟨kept.order, kept.once, kept.begun, kept.gone⟩
  | left =>
    have kept := sound.put here .returned nofun rfl rfl
    exact ⟨kept.order, kept.once, kept.begun, kept.gone⟩
  | took =>
    have same := held_put here (.holding s.tasks.head?)
    refine ⟨?_, ?_, sound.begun, sound.gone_put here nofun⟩
    · have first : s.tasks.head?.toList ++ s.tasks.tail = s.tasks := by cases s.tasks <;> rfl
      exact (List.append_assoc ..).trans ((congrArg _ first).trans sound.order)
    · have taken := sound.once.append_right s.tasks.head?.toList
      rw [List.append_assoc] at taken
      rw [show WorkerPhase.held (.chosen : WorkerPhase T) = [] from rfl, List.append_nil] at same
      exact (same.append_left _).trans taken
  | finished task =>
    have same := held_put here .loopHead
    rw [show WorkerPhase.held (.loopHead : WorkerPhase T) = [] from rfl, List.append_nil] at same
    refine ⟨sound.order, ?_, sound.begun, sound.gone_put here nofun⟩
    have swapped : (task.toList ++ (s.put k .loopHead).held).Perm s.held :=
      List.perm_append_comm.trans same
    have moved := (swapped.append_left s.ran).trans sound.once
    rw [← List.append_assoc] at moved
    exact moved

theorem Sound.step {move : Move T} (sound : s.Sound) (stepped : s.step move = some t) :
    t.Sound := by
  cases step_cases stepped with
  | enqueue alive =>
    refine ⟨?_, sound.once, sound.begun, fun joining => ?_⟩
    · exact (List.append_assoc ..).symm.trans (congrArg (· ++ _) sound.order)
    · exact absurd (alive.symm.trans joining) nofun
  | lost => exact ⟨sound.order, sound.once, sound.begun, sound.gone⟩
  | notified asleep | woken asleep =>
    have kept := sound.put asleep .locking nofun rfl rfl
    exact ⟨kept.order, kept.once, kept.begun, kept.gone⟩
  | work here worked => exact sound.worked here worked
  | setStop => exact ⟨sound.order, sound.once, fun _ => rfl, nofun⟩
  | notifyAll notifying =>
    refine ⟨sound.order, ?_, fun _ => sound.begun (by simp [notifying]), ?_⟩
    · have same := sound.once
      rw [held, ← held_wake] at same
      exact same
    · rintro joined ⟨⟩ j ⟨⟩
  | join joining returned =>
    refine ⟨sound.order, sound.once, fun _ => sound.begun (by simp [joining]), ?_⟩
    rintro joined ⟨⟩ j before
    cases Nat.lt_succ_iff_lt_or_eq.mp before with
    | inl earlier => exact sound.gone joining j earlier
    | inr last => exact last ▸ returned

theorem Sound.distinct (sound : s.Sound) (distinct : s.enqueued.Nodup) :
    s.pool.unfinished.Nodup := by
  have all : (s.ran ++ (s.held ++ s.tasks)).Perm s.enqueued := by
    have kept := sound.once.append_right s.tasks
    rwa [sound.order, List.append_assoc] at kept
  rw [WorkerPool.unfinished, running_pool]
  exact (List.nodup_append.mp (all.nodup_iff.mpr distinct)).2.1

theorem enqueued_run {moves : List (Move T)} (run : Run step Free s moves t) :
    s.enqueued <+: t.enqueued := by
  refine run.related (R := fun s t => s.enqueued <+: t.enqueued) (fun s => List.prefix_rfl)
    List.IsPrefix.trans fun _ stepped => ?_
  cases step_cases stepped with
  | enqueue => exact List.prefix_append _ _
  | work _ worked => cases worked <;> exact List.prefix_rfl
  | _ => exact List.prefix_rfl

theorem pool_run [DecidableEq T] {moves : List (Move T)} (sound : s.Sound)
    (run : Run step Free s moves t) (distinct : t.enqueued.Nodup) :
    Relation.ReflTransGen WorkerPool.Step s.pool t.pool := by
  induction run with
  | refl => exact .refl
  | next _ stepped rest ih =>
    have later := enqueued_run rest
    have whole := enqueued_run (.next trivial stepped rest)
    have free := sound.distinct (distinct.sublist whole.sublist)
    have goesOn := ih (sound.step stepped) distinct
    rcases pool_step stepped free with same | advanced
    · exact same ▸ goesOn
    · exact .head advanced goesOn

/-- What the threads do to the pool, a pool can do whose workers take and finish tasks
in single steps. -/
theorem start_refines [DecidableEq T] {numThreads : Nat} {moves : List (Move T)}
    (run : Run step Free (start numThreads) moves s) (distinct : s.enqueued.Nodup) :
    Relation.ReflTransGen WorkerPool.Step (.start numThreads) s.pool := by
  have idle : (start numThreads : ThreadPool T).pool = .start numThreads :=
    congrArg (WorkerPool.mk []) List.map_replicate
  rw [← idle]
  exact pool_run (sound_start numThreads) run distinct

/-- After `stop` each worker that was engaged takes one task as long as there are any,
and no other worker takes one. -/
structure Draining (waiting engaged : Nat) (s : ThreadPool T) : Prop where
  begun : s.destructor ≠ .notBegun
  stopped : s.stop = true
  fewer : s.engaged ≤ engaged
  shortfall : s.tasks.length = waiting - (engaged - s.engaged)

theorem Draining.worked {waiting engaged : Nat} (draining : s.Draining waiting engaged)
    (here : s.workers[k]? = some phase) (worked : Worked s k phase t) :
    t.Draining waiting engaged := by
  obtain ⟨begun, stopped, fewer, shortfall⟩ := draining
  cases worked with
  | @moved _ next queueMutex _ _ _ kept =>
    have count := engaged_put here next
    rw [kept stopped] at count
    have same : (s.put k next).engaged = s.engaged := by omega
    exact ⟨begun, stopped, Nat.le_trans (Nat.le_of_eq same) fewer, same ▸ shortfall⟩
  | left _ empty =>
    have count : (s.put k .returned).engaged + 1 = s.engaged + 0 := engaged_put here .returned
    rw [empty, List.length_nil] at shortfall
    refine ⟨begun, stopped, ?_, ?_⟩
    · change (s.put k .returned).engaged ≤ engaged
      omega
    · change s.tasks.length = waiting - (engaged - (s.put k .returned).engaged)
      rw [empty, List.length_nil]
      omega
  | took more =>
    have count : (s.put k (.holding s.tasks.head?)).engaged + 1 = s.engaged + 0 :=
      engaged_put here _
    have some_ := List.length_pos_iff.mpr (more stopped)
    refine ⟨begun, stopped, ?_, ?_⟩
    · change (s.put k (.holding s.tasks.head?)).engaged ≤ engaged
      omega
    · change s.tasks.tail.length = waiting - (engaged - (s.put k (.holding s.tasks.head?)).engaged)
      rw [List.length_tail]
      omega
  | finished task =>
    have count : (s.put k .loopHead).engaged + 0 = s.engaged + 0 := engaged_put here .loopHead
    refine ⟨begun, stopped, Nat.le_trans (Nat.le_of_eq count) fewer, ?_⟩
    change s.tasks.length = waiting - (engaged - (s.put k .loopHead).engaged)
    omega

theorem Draining.step {waiting engaged : Nat} {move : Move T}
    (draining : s.Draining waiting engaged) (stepped : s.step move = some t) :
    t.Draining waiting engaged ∧ move ≠ .setStop := by
  obtain ⟨begun, stopped, fewer, shortfall⟩ := draining
  cases step_cases stepped with
  | enqueue alive => exact absurd alive begun
  | lost => exact ⟨⟨begun, stopped, fewer, shortfall⟩, nofun⟩
  | notified asleep | woken asleep =>
    have same : (s.put _ .locking).engaged = s.engaged := Nat.succ.inj (engaged_put asleep .locking)
    rw [← same] at fewer shortfall
    exact ⟨⟨begun, stopped, fewer, shortfall⟩, nofun⟩
  | work here worked =>
    exact ⟨Draining.worked ⟨begun, stopped, fewer, shortfall⟩ here worked, nofun⟩
  | setStop alive => exact absurd alive begun
  | notifyAll =>
    have same := engaged_wake s.workers
    rw [ThreadPool.engaged, ← same] at fewer shortfall
    exact ⟨⟨nofun, stopped, fewer, shortfall⟩, nofun⟩
  | join => exact ⟨⟨nofun, stopped, fewer, shortfall⟩, nofun⟩

/-- The destructor has joined all workers. -/
def Joined (s : ThreadPool T) : Prop := s.destructor = .joining s.workers.length

instance : DecidablePred (Joined (T := T)) := fun _ => inferInstanceAs (Decidable (_ = _))

/-- Every task has been run exactly once, and was taken in the order of the calls of `enqueue`. -/
def Completed (s : ThreadPool T) : Prop := s.ran.Perm s.enqueued ∧ s.taken = s.enqueued

/-- At the moment at which the destructor sets `stop`, there are no more tasks in
the queue than workers past the head of their loop that have yet to take one. -/
def Drains (s : ThreadPool T) (move : Move T) : Prop :=
  move = .setStop → s.tasks.length ≤ s.engaged

instance [DecidableEq T] : DecidableRel (Drains (T := T)) := fun _ _ =>
  inferInstanceAs (Decidable (_ = _ → _ ≤ _))

theorem Sound.all_returned (sound : s.Sound) (joined : s.Joined) :
    ∀ phase ∈ s.workers, phase = .returned := by
  intro phase member
  obtain ⟨j, inside, here⟩ := List.mem_iff_getElem.mp member
  have returned := sound.gone joined j inside
  rw [List.getElem?_eq_getElem inside, here] at returned
  exact Option.some.inj returned

theorem Sound.held_eq_nil (sound : s.Sound) (joined : s.Joined) : s.held = [] := by
  apply List.flatMap_eq_nil_iff.mpr
  intro phase member
  rw [sound.all_returned joined phase member]
  rfl

theorem Sound.tasks_nil_iff (sound : s.Sound) (joined : s.Joined) :
    s.Completed ↔ s.tasks = [] := by
  have once := sound.once
  rw [sound.held_eq_nil joined, List.append_nil] at once
  constructor
  · intro completed
    have order := sound.order
    rw [completed.2] at order
    exact List.append_right_eq_self.mp order
  · intro empty
    have order := sound.order
    rw [empty, List.append_nil] at order
    exact ⟨order ▸ once, order⟩

theorem Sound.engaged_eq_zero (sound : s.Sound) (joined : s.Joined) : s.engaged = 0 := by
  apply List.countP_eq_zero.mpr
  intro phase member
  rw [sound.all_returned joined phase member]
  exact Bool.false_ne_true

/-- What is left in the queue in the end depends on the moment at which `stop` was set. -/
theorem Draining.tasks_iff {waiting engaged : Nat} (draining : s.Draining waiting engaged)
    (sound : s.Sound) (joined : s.Joined) : s.tasks = [] ↔ waiting ≤ engaged := by
  have shortfall := draining.shortfall
  rw [sound.engaged_eq_zero joined, Nat.sub_zero] at shortfall
  rw [← List.length_eq_zero_iff]
  omega

/-- The destructor sets `stop` once. -/
theorem Draining.run {waiting engaged : Nat} {moves : List (Move T)}
    (draining : s.Draining waiting engaged) (run : Run ThreadPool.step Free s moves t) :
    t.Draining waiting engaged ∧ Run ThreadPool.step Drains s moves t := by
  induction run with
  | refl s => exact ⟨draining, .refl s⟩
  | next _ stepped _ ih =>
    obtain ⟨kept, other⟩ := draining.step stepped
    obtain ⟨last, rest⟩ := ih kept
    exact ⟨last, .next (fun stops => absurd stops other) stepped rest⟩

theorem draining_setStop (stepped : s.step .setStop = some t) :
    t.Draining s.tasks.length s.engaged := by
  cases step_cases stepped with
  | setStop =>
    refine ⟨nofun, rfl, Nat.le_refl _, ?_⟩
    change s.tasks.length = s.tasks.length - (s.engaged - s.engaged)
    omega

theorem drains_iff {moves : List (Move T)} (sound : s.Sound) (alive : s.destructor = .notBegun)
    (run : Run step Free s moves t) (joined : t.Joined) (last : t.Sound) :
    t.tasks = [] ↔ Run step Drains s moves t := by
  induction run with
  | refl s => exact absurd (alive.symm.trans joined) nofun
  | @next s t u move moves admitted stepped rest ih =>
    by_cases stops : move = .setStop
    · cases stops
      obtain ⟨drained, drains⟩ := (draining_setStop stepped).run rest
      rw [drained.tasks_iff last joined]
      constructor
      · intro few
        exact .next (fun _ => few) stepped drains
      · intro run
        cases run with
        | next few => exact few rfl
    · have still : t.destructor = .notBegun := by
        cases step_cases stepped with
        | enqueue | lost | notified | woken => exact alive
        | work _ worked => cases worked <;> exact alive
        | setStop => exact absurd rfl stops
        | notifyAll notifying => exact absurd (alive.symm.trans notifying) nofun
        | join joining => exact absurd (alive.symm.trans joining) nofun
      rw [ih (sound.step stepped) still joined last]
      constructor
      · intro run
        exact .next (fun same => absurd same stops) stepped run
      · intro run
        cases run with
        | next _ same run =>
          cases stepped.symm.trans same
          exact run

/-- When the destructor has joined all workers, all tasks have been run, in the order
of the calls of `enqueue`, exactly if there were at most as many left in the queue
when it set `stop` as workers about to take one. What was taken was taken in order
and has been run in any case. -/
theorem completed_iff {numThreads : Nat} {moves : List (Move T)}
    (run : Run step Free (start numThreads) moves s) (joined : s.Joined) :
    (s.Completed ↔ Run step Drains (start numThreads) moves s) ∧
      s.taken <+: s.enqueued ∧ s.ran.Perm s.taken := by
  have sound : s.Sound :=
    run.invariant (fun sound _ stepped => sound.step stepped) (sound_start numThreads)
  refine ⟨?_, ⟨s.tasks, sound.order⟩, ?_⟩
  · rw [sound.tasks_nil_iff joined]
    exact drains_iff (sound_start numThreads) rfl run joined sound
  · have once := sound.once
    rw [sound.held_eq_nil joined, List.append_nil] at once
    exact once

/-- A worker that is past the head of its loop when `stop` is set runs the only task. -/
theorem completed_of_one : ∃ s : ThreadPool Nat, s.Joined ∧ s.Completed := by
  obtain ⟨s, executed, joined⟩ := evaluated
    (o := execute (guarded (fun s move => decide (Drains s move)) step) (start 1)
      [.work 0, .enqueue 7, .notifyOne none, .setStop, .notifyAll,
        .work 0, .work 0, .work 0, .work 0, .work 0, .join])
    (P := Joined) (by decide)
  have run : Run step Drains (start 1) _ s :=
    run_of_guarded (fun _ _ => of_decide_eq_true) _ executed
  have free : Run step Free (start 1) _ s := run.weaken fun _ _ _ => trivial
  exact ⟨s, joined, (completed_iff free joined).1.mpr run⟩

/-- The only worker finds `stop` set at the head of its loop, and the task is never run. -/
theorem not_always_completed : ¬ ∀ (numThreads : Nat) (moves : List (Move Nat)) (s : ThreadPool Nat),
    0 < numThreads → Run step Free (start numThreads) moves s → s.Joined → s.Completed := by
  intro always
  obtain ⟨s, executed, joined, lost⟩ := evaluated (o := execute step (start 1)
      [.enqueue 7, .notifyOne none, .setStop, .work 0, .notifyAll, .join])
    (P := fun s : ThreadPool Nat => s.Joined ∧ s.taken ≠ s.enqueued) (by decide)
  have completed := always 1 _ s (by decide) (execute_run _ executed) joined
  exact lost completed.2

end ThreadPool
end SocketMessaging
