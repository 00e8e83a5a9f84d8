import Mathlib.Algebra.GroupWithZero.Nat
import SocketMessaging.Library.Wakeups
import SocketMessaging.Utils.ThreadPool

/-! When the threads of the pool sleep. No task waits in vain while a worker sleeps,
until the destructor begins. The destructor sets `stop` without the lock, so it can
come between a worker's look at the predicate and its going to sleep. -/
namespace SocketMessaging
open Transition

namespace WorkerPhase
variable {T : Type}

/-- The worker holds `queueMutex`. -/
def inside : WorkerPhase T → Bool
  | .testing | .parking | .chosen => true
  | _ => false

def asleep : WorkerPhase T → Bool
  | .waiting => true
  | _ => false

/-- The worker has no task and is going to look for one. -/
def looking : WorkerPhase T → Bool
  | .loopHead | .locking | .testing | .chosen => true
  | _ => false

end WorkerPhase

namespace ThreadPool
variable {T : Type} {s t : ThreadPool T} {k : Nat} {phase : WorkerPhase T} {move : Move T}

/-- The lock is held by the worker that says so, and whoever is about to sleep has
seen an empty queue. -/
structure Locked (s : ThreadPool T) : Prop where
  holder : ∀ {k : Nat}, s.queueMutex = some k →
    ∃ phase, s.workers[k]? = some phase ∧ phase.inside = true
  inside : ∀ {k : Nat} {phase : WorkerPhase T}, s.workers[k]? = some phase →
    phase.inside = true → s.queueMutex = some k
  parking : ∀ {k : Nat}, s.workers[k]? = some .parking → s.tasks = []

theorem getElem?_put (here : s.workers[k]? = some phase) (next : WorkerPhase T) (j : Nat) :
    (s.put k next).workers[j]? = if j = k then some next else s.workers[j]? := by
  have inside := (List.getElem?_eq_some_iff.mp here).1
  by_cases same : j = k
  · subst same
    rw [if_pos rfl]
    exact List.getElem?_set_self inside
  · rw [if_neg same]
    exact List.getElem?_set_ne (Ne.symm same)

/-- A worker that has the lock keeps it, and takes nothing. -/
theorem Locked.keep (locked : s.Locked) (here : s.workers[k]? = some phase)
    (next : WorkerPhase T) (same : next.inside = phase.inside)
    (empty : next = .parking → s.tasks = []) : (s.put k next).Locked where
  holder := by
    intro j held
    obtain ⟨other, there, inside⟩ := locked.holder held
    rw [getElem?_put here]
    by_cases own : j = k
    · subst own
      obtain rfl := Option.some.inj (here.symm.trans there)
      exact ⟨next, if_pos rfl, same.trans inside⟩
    · exact ⟨other, (if_neg own).trans there, inside⟩
  inside := by
    intro j other there inside
    rw [getElem?_put here] at there
    split_ifs at there with own
    · cases there
      subst own
      exact locked.inside here (same.symm.trans inside)
    · exact locked.inside there inside
  parking := by
    intro j there
    rw [getElem?_put here] at there
    split_ifs at there
    · exact empty (Option.some.inj there)
    · exact locked.parking there

/-- A worker lets go of the lock. -/
theorem Locked.release (locked : s.Locked) (here : s.workers[k]? = some phase)
    (held : phase.inside = true) (outside : next.inside = false) (tasks taken : List T) :
    Locked { s.put k next with queueMutex := none, tasks, taken } := by
  have alone : ∀ {j : Nat} {other : WorkerPhase T},
      (s.put k next).workers[j]? = some other → other.inside = false := by
    intro j other there
    rw [getElem?_put here] at there
    split_ifs at there with own
    · exact Option.some.inj there ▸ outside
    · cases inside : other.inside with
      | false => rfl
      | true =>
        have both := (locked.inside there inside).symm.trans (locked.inside here held)
        exact absurd (Option.some.inj both) own
  exact ⟨nofun, fun there inside => absurd inside (by rw [alone there]; exact Bool.false_ne_true),
    fun there => absurd (alone there) (show true ≠ false from nofun)⟩

/-- A worker that did not have the lock takes it. -/
theorem Locked.acquire (locked : s.Locked) (here : s.workers[k]? = some .locking)
    (free : s.queueMutex = none) : Locked { s.put k .testing with queueMutex := some k } where
  holder := by
    rintro j ⟨⟩
    exact ⟨.testing, (getElem?_put here .testing k).trans (if_pos rfl), rfl⟩
  inside := by
    intro j other there inside
    have there : (s.put k .testing).workers[j]? = some other := there
    rw [getElem?_put here] at there
    split_ifs at there with own
    · exact own ▸ rfl
    · exact absurd (locked.inside there inside) (free ▸ nofun)
  parking := by
    intro j there
    have there : (s.put k .testing).workers[j]? = some .parking := there
    rw [getElem?_put here] at there
    split_ifs at there
    · cases there
    · exact locked.parking there

theorem Locked.work (locked : s.Locked) (here : s.workers[k]? = some phase)
    (worked : s.work k phase = some t) : t.Locked := by
  cases phase with
  | loopHead =>
    cases worked
    refine locked.keep here _ ?_ fun parks => ?_
    · split <;> rfl
    · split at parks <;> cases parks
  | locking =>
    obtain ⟨free, same⟩ := Option.ite_none_right_eq_some.mp worked
    cases same
    exact locked.acquire here free
  | testing =>
    cases worked
    refine locked.keep here _ ?_ fun parks => ?_
    · split <;> rfl
    · split at parks
      · cases parks
      · rename_i neither
        by_contra some_
        simp [some_] at neither
  | parking =>
    cases worked
    exact locked.release here rfl rfl s.tasks s.taken
  | waiting | returned => cases worked
  | chosen =>
    simp only [ThreadPool.work] at worked
    split at worked
    · cases worked
      exact locked.release here rfl rfl s.tasks s.taken
    · cases worked
      exact locked.release here rfl rfl s.tasks.tail _
  | holding task =>
    cases worked
    have kept := locked.keep here .loopHead rfl (fun parks => by cases parks)
    exact ⟨kept.holder, kept.inside, kept.parking⟩

theorem inside_wakePhase (phase : WorkerPhase T) :
    (wakePhase phase).inside = phase.inside := by
  cases phase <;> rfl

theorem Locked.step (locked : s.Locked) (stepped : s.step move = some t) : t.Locked := by
  cases move with
  | enqueue task =>
    obtain ⟨⟨free, _⟩, same⟩ := Option.ite_none_right_eq_some.mp stepped
    cases same
    refine ⟨locked.holder, locked.inside, fun there => ?_⟩
    exact absurd (locked.inside there rfl) (free ▸ nofun)
  | notifyOne worker =>
    obtain ⟨_, stepped⟩ := Option.ite_none_right_eq_some.mp stepped
    cases worker with
    | none =>
      obtain ⟨_, same⟩ := Option.ite_none_right_eq_some.mp stepped
      cases same
      exact ⟨locked.holder, locked.inside, locked.parking⟩
    | some k =>
      obtain ⟨asleep, rfl⟩ := wake_eq_some stepped
      have kept := locked.keep asleep .locking rfl nofun
      exact ⟨kept.holder, kept.inside, kept.parking⟩
  | wakeSpuriously k =>
    obtain ⟨asleep, rfl⟩ := wake_eq_some stepped
    exact locked.keep asleep _ rfl nofun
  | work k =>
    obtain ⟨phase, here, worked⟩ := Option.bind_eq_some_iff.mp stepped
    exact locked.work here worked
  | setStop =>
    obtain ⟨_, same⟩ := Option.ite_none_right_eq_some.mp stepped
    cases same
    exact ⟨locked.holder, locked.inside, locked.parking⟩
  | notifyAll =>
    obtain ⟨_, same⟩ := Option.ite_none_right_eq_some.mp stepped
    cases same
    have found : ∀ {k : Nat} {phase : WorkerPhase T}, (s.workers.map wakePhase)[k]? = some phase →
        ∃ old, s.workers[k]? = some old ∧ wakePhase old = phase := by
      intro k phase there
      rw [List.getElem?_map] at there
      exact Option.map_eq_some_iff.mp there
    constructor
    · intro k held
      obtain ⟨phase, here, inside⟩ := locked.holder held
      refine ⟨wakePhase phase, ?_, (inside_wakePhase phase).trans inside⟩
      change (s.workers.map wakePhase)[k]? = _
      rw [List.getElem?_map, here]
      rfl
    · intro k phase there inside
      obtain ⟨old, here, rfl⟩ := found there
      exact locked.inside here ((inside_wakePhase old).symm.trans inside)
    · intro k there
      obtain ⟨old, here, woken⟩ := found there
      cases old with
      | parking => exact locked.parking here
      | _ => cases woken
  | join =>
    simp only [ThreadPool.step] at stepped
    split at stepped
    · obtain ⟨_, same⟩ := Option.ite_none_right_eq_some.mp stepped
      cases same
      exact ⟨locked.holder, locked.inside, locked.parking⟩
    · cases stepped

theorem start_locked (numThreads : Nat) : (start numThreads : ThreadPool T).Locked := by
  have idle : ∀ {k : Nat} {phase : WorkerPhase T},
      (start numThreads : ThreadPool T).workers[k]? = some phase → phase = .loopHead := fun here => List.eq_of_mem_replicate (List.mem_of_getElem? here)
  refine ⟨nofun, fun here inside => ?_, fun here => ?_⟩
  · rw [idle here] at inside
    cases inside
  · cases idle here

/-- How the workers stand to the tasks. -/
def wakeups (s : ThreadPool T) : Wakeups where
  asleep := s.workers.countP WorkerPhase.asleep
  awake := s.workers.countP WorkerPhase.looking
  queued := s.tasks.length
  due := s.toNotify

theorem countP_put (here : s.workers[k]? = some phase) (next : WorkerPhase T)
    (p : WorkerPhase T → Bool) : (s.put k next).workers.countP p + (p phase).toNat =
      s.workers.countP p + (p next).toNat := by
  obtain ⟨left, right, before, after⟩ := workers_put here
  rw [after, before, List.countP_append, List.countP_append, List.countP_cons, List.countP_cons]
  cases p phase <;> cases p next <;> simp <;> omega

theorem wakeups_put (here : s.workers[k]? = some phase) (next : WorkerPhase T) :
    (s.put k next).wakeups = { s.wakeups with
      asleep := s.wakeups.asleep + next.asleep.toNat - phase.asleep.toNat
      awake := s.wakeups.awake + next.looking.toNat - phase.looking.toNat } := by
  have asleep := countP_put here next WorkerPhase.asleep
  have looking := countP_put here next WorkerPhase.looking
  simp only [wakeups, Wakeups.mk.injEq]
  exact ⟨by omega, by omega, rfl, rfl⟩

/-- What a worker's step means for the counts, before the destructor begins. -/
theorem wakeups_work (locked : s.Locked) (alive : s.stop = false)
    (here : s.workers[k]? = some phase) (worked : s.work k phase = some t) :
    s.wakeups.Step t.wakeups := by
  have counts := wakeups_put here
  cases phase with
  | loopHead =>
    cases worked
    rw [alive, counts]
    exact .stutter
  | locking =>
    obtain ⟨_, same⟩ := Option.ite_none_right_eq_some.mp worked
    cases same
    change s.wakeups.Step (s.put k .testing).wakeups
    rw [counts]
    exact .stutter
  | testing =>
    cases worked
    rw [alive, counts]
    cases empty : s.tasks.isEmpty with
    | false => exact .stutter
    | true =>
      have none : s.wakeups.queued = 0 := by
        rw [List.isEmpty_iff] at empty
        rw [wakeups, empty]
        rfl
      exact .idle none
  | parking =>
    cases worked
    have none : s.wakeups.queued = 0 := by
      rw [wakeups, locked.parking here]
      rfl
    change s.wakeups.Step (s.put k .waiting).wakeups
    rw [counts]
    exact .idle none
  | waiting | returned => cases worked
  | chosen =>
    simp only [work, alive, Bool.false_and, Bool.false_eq_true, if_false, Option.some.injEq] at worked
    subst worked
    have counts := counts (.holding s.tasks.head?)
    change s.wakeups.Step { (s.put k (.holding s.tasks.head?)).wakeups with
      queued := s.tasks.tail.length }
    rw [counts, List.length_tail]
    exact .take
  | holding task =>
    cases worked
    change s.wakeups.Step (s.put k .loopHead).wakeups
    rw [counts]
    exact .rejoin

theorem wakeups_step (locked : s.Locked) (alive : s.stop = false) (begun : t.destructor = .notBegun)
    (stepped : s.step move = some t) : s.wakeups.Step t.wakeups := by
  cases move with
  | enqueue task =>
    obtain ⟨_, same⟩ := Option.ite_none_right_eq_some.mp stepped
    cases same
    have longer : (s.tasks ++ [task]).length = s.tasks.length + 1 := List.length_append
    change s.wakeups.Step { s.wakeups with
      queued := (s.tasks ++ [task]).length, due := s.toNotify + 1 }
    rw [longer]
    exact .push
  | notifyOne worker =>
    obtain ⟨due, stepped⟩ := Option.ite_none_right_eq_some.mp stepped
    cases worker with
    | none =>
      obtain ⟨nobody, same⟩ := Option.ite_none_right_eq_some.mp stepped
      cases same
      refine .drop (List.countP_eq_zero.mpr fun phase member sleeps => ?_)
      have awake := List.all_eq_true.mp nobody phase member
      cases phase with
      | waiting => cases awake
      | _ => cases sleeps
    | some k =>
      obtain ⟨asleep, rfl⟩ := wake_eq_some stepped
      have asleep : s.workers[k]? = some .waiting := asleep
      change s.wakeups.Step { (s.put k .locking).wakeups with due := s.toNotify - 1 }
      rw [wakeups_put asleep]
      have fewer : s.wakeups.due ≤ s.toNotify - 1 + 1 := by
        change s.toNotify ≤ s.toNotify - 1 + 1
        omega
      exact .wake fewer
  | wakeSpuriously k =>
    obtain ⟨asleep, rfl⟩ := wake_eq_some stepped
    rw [wakeups_put asleep]
    exact .wake (Nat.le_succ _)
  | work k =>
    obtain ⟨phase, here, worked⟩ := Option.bind_eq_some_iff.mp stepped
    exact wakeups_work locked alive here worked
  | setStop =>
    obtain ⟨_, same⟩ := Option.ite_none_right_eq_some.mp stepped
    cases same
    cases begun
  | notifyAll =>
    obtain ⟨_, same⟩ := Option.ite_none_right_eq_some.mp stepped
    cases same
    cases begun
  | join =>
    cases step_cases stepped
    cases begun

/-- What holds before the destructor begins, and that no notification is left then. -/
structure Attended (s : ThreadPool T) : Prop where
  locked : s.Locked
  alive : s.destructor = .notBegun → s.stop = false
  covered : s.destructor = .notBegun → s.wakeups.Covered
  notified : s.destructor ≠ .notBegun → s.toNotify = 0

/-- The destructor does not go back. -/
theorem notBegun_before (stepped : s.step move = some t) (begun : t.destructor = .notBegun) :
    s.destructor = .notBegun ∧ (s.stop = false → t.stop = false) := by
  cases step_cases stepped with
  | enqueue | lost | notified | woken => exact ⟨begun, id⟩
  | work _ worked => cases worked <;> exact ⟨begun, id⟩
  | setStop | notifyAll | join => cases begun

theorem Attended.step (attended : s.Attended) (stepped : s.step move = some t) : t.Attended where
  locked := attended.locked.step stepped
  alive := fun begun =>
    have before := notBegun_before stepped begun
    before.2 (attended.alive before.1)
  covered := by
    intro begun
    obtain ⟨before, _⟩ := notBegun_before stepped begun
    have counts := wakeups_step attended.locked (attended.alive before) begun stepped
    exact counts.covered (attended.covered before)
  notified := by
    intro begun
    cases move with
    | enqueue task =>
      obtain ⟨⟨_, alive⟩, same⟩ := Option.ite_none_right_eq_some.mp stepped
      cases same
      exact absurd alive begun
    | notifyOne worker =>
      obtain ⟨due, _⟩ := Option.ite_none_right_eq_some.mp stepped
      have alive : s.destructor ≠ .notBegun := by
        cases step_cases stepped <;> exact begun
      rw [attended.notified alive] at due
      exact absurd due (Nat.lt_irrefl 0)
    | wakeSpuriously k =>
      obtain ⟨_, rfl⟩ := wake_eq_some stepped
      exact attended.notified begun
    | work k =>
      cases step_cases stepped with
      | work _ worked => cases worked <;> exact attended.notified begun
    | setStop =>
      obtain ⟨⟨_, none⟩, same⟩ := Option.ite_none_right_eq_some.mp stepped
      cases same
      exact none
    | notifyAll =>
      obtain ⟨notifying, same⟩ := Option.ite_none_right_eq_some.mp stepped
      cases same
      exact attended.notified (by rw [notifying]; nofun)
    | join =>
      cases step_cases stepped with
      | join joining => exact attended.notified (by rw [joining]; nofun)

theorem start_attended (numThreads : Nat) : (start numThreads : ThreadPool T).Attended where
  locked := start_locked numThreads
  alive := fun _ => rfl
  covered := fun _ _ => Nat.zero_le _
  notified := fun begun => absurd rfl begun

theorem run_attended {numThreads : Nat} {moves : List (Move T)}
    (run : Run step Free (start numThreads) moves s) : s.Attended :=
  run.invariant (fun attended _ stepped => attended.step stepped) (start_attended numThreads)

/-- Until the destructor begins no task waits while a worker sleeps, unless a worker
without a task is on its way to the queue or a call of `enqueue` has yet to notify. -/
theorem work_conserving {numThreads : Nat} {moves : List (Move T)}
    (run : Run step Free (start numThreads) moves s) (alive : s.destructor = .notBegun)
    (asleep : .waiting ∈ s.workers) :
    s.tasks.length ≤ s.toNotify + s.workers.countP WorkerPhase.looking :=
  (run_attended run).covered alive (List.countP_pos_iff.mpr ⟨_, asleep, rfl⟩)

/-- One worker sleeps while a task waits for the other, which has been woken. -/
theorem work_conserving_of_two : ∃ s : ThreadPool Nat, s.tasks = [7] ∧ .waiting ∈ s.workers ∧
    s.tasks.length ≤ s.toNotify + s.workers.countP WorkerPhase.looking := by
  obtain ⟨s, executed, tasks, asleep, alive⟩ := evaluated
    (o := execute step (start 2) [.work 0, .work 0, .work 0, .work 0, .work 1, .work 1, .work 1,
      .work 1, .enqueue 7, .notifyOne (some 1)])
    (P := fun s : ThreadPool Nat =>
      s.tasks = [7] ∧ .waiting ∈ s.workers ∧ s.destructor = .notBegun) (by decide)
  exact ⟨s, tasks, asleep, work_conserving (execute_run _ executed) alive asleep⟩

/-- No worker wakes up for nothing. -/
def Quiet (_ : ThreadPool T) (move : Move T) : Prop := ∀ k, move ≠ .wakeSpuriously k

/-- How many steps a worker still has to take once `stop` is set. -/
def stepsLeft : WorkerPhase T → Nat
  | .returned | .waiting => 0
  | .parking | .loopHead => 1
  | .holding _ => 2
  | .chosen => 3
  | .testing => 4
  | .locking => 5

/-- The worker sleeps, or is about to. -/
def stranded : WorkerPhase T → Bool
  | .parking | .waiting => true
  | _ => false

/-- The steps of the workers and of the destructor that remain. -/
def remaining (s : ThreadPool T) : Nat :=
  (s.workers.map stepsLeft).sum + match s.destructor with
    | .joining joined => s.workers.length - joined
    | _ => 0

/-- The destructor has called `notify_all` and waits for the workers. -/
structure Closing (s : ThreadPool T) : Prop where
  locked : s.Locked
  sound : s.Sound
  stopped : s.stop = true
  joining : ∃ joined, s.destructor = .joining joined
  notified : s.toNotify = 0

theorem sum_stepsLeft_le (workers : List (WorkerPhase T)) :
    (workers.map stepsLeft).sum ≤ 5 * workers.length := by
  induction workers with
  | nil => exact Nat.le_refl 0
  | cons phase workers ih =>
    have most : stepsLeft phase ≤ 5 := by cases phase <;> simp only [stepsLeft] <;> omega
    rw [List.map_cons, List.sum_cons, List.length_cons]
    omega

theorem stepsLeft_put (here : s.workers[k]? = some phase) (next : WorkerPhase T) :
    ((s.put k next).workers.map stepsLeft).sum + stepsLeft phase =
      (s.workers.map stepsLeft).sum + stepsLeft next ∧
    (s.put k next).workers.length = s.workers.length := by
  obtain ⟨left, right, before, after⟩ := workers_put here
  simp only [after, before, List.map_append, List.map_cons, List.sum_append, List.sum_cons,
    List.length_append, List.length_cons, and_true]
  omega

/-- A worker's step after `stop` brings it closer to its end, and strands nobody. -/
theorem Closing.worked (closing : s.Closing) (here : s.workers[k]? = some phase)
    (worked : s.work k phase = some t) : t.remaining < s.remaining ∧
      t.workers.countP stranded = s.workers.countP stranded := by
  have advances : ∀ next, stepsLeft next < stepsLeft phase → stranded next = stranded phase →
      ∀ {u : ThreadPool T}, u.workers = (s.put k next).workers → u.destructor = s.destructor →
      u.remaining < s.remaining ∧ u.workers.countP stranded = s.workers.countP stranded := by
    intro next fewer same u workers destructor
    obtain ⟨sum, length⟩ := stepsLeft_put here next
    have count := countP_put here next stranded
    rw [same] at count
    refine ⟨?_, workers ▸ Nat.add_right_cancel count⟩
    rw [remaining, remaining, workers, destructor, length]
    omega
  have stopped := closing.stopped
  cases phase with
  | loopHead =>
    cases worked
    rw [stopped]
    exact advances .returned (Nat.lt_succ_self 0) rfl rfl rfl
  | locking =>
    obtain ⟨_, same⟩ := Option.ite_none_right_eq_some.mp worked
    cases same
    exact advances .testing (Nat.lt_succ_self 4) rfl rfl rfl
  | testing =>
    cases worked
    rw [stopped]
    exact advances .chosen (Nat.lt_succ_self 3) rfl rfl rfl
  | parking =>
    cases worked
    exact advances .waiting (Nat.lt_succ_self 0) rfl rfl rfl
  | waiting | returned => cases worked
  | chosen =>
    simp only [work] at worked
    split at worked
    · cases worked
      exact advances .returned (Nat.succ_pos 2) rfl rfl rfl
    · cases worked
      exact advances (.holding s.tasks.head?) (Nat.lt_succ_self 2) rfl rfl rfl
  | holding task =>
    cases worked
    exact advances .loopHead (Nat.lt_succ_self 1) rfl rfl rfl

theorem Closing.step (closing : s.Closing) (quiet : Quiet s move) (stepped : s.step move = some t) :
    t.Closing ∧ t.remaining < s.remaining ∧
      t.workers.countP stranded = s.workers.countP stranded := by
  obtain ⟨joined, joining⟩ := closing.joining
  have locked := closing.locked.step stepped
  have sound := closing.sound.step stepped
  cases move with
  | enqueue task =>
    obtain ⟨⟨_, alive⟩, _⟩ := Option.ite_none_right_eq_some.mp stepped
    exact absurd (alive.symm.trans joining) nofun
  | notifyOne worker =>
    obtain ⟨due, _⟩ := Option.ite_none_right_eq_some.mp stepped
    exact absurd closing.notified (Nat.ne_of_gt due)
  | wakeSpuriously k => exact absurd rfl (quiet k)
  | work k =>
    obtain ⟨phase, here, worked⟩ := Option.bind_eq_some_iff.mp stepped
    refine ⟨?_, closing.worked here worked⟩
    cases work_cases worked <;>
      exact ⟨locked, sound, closing.stopped, ⟨joined, joining⟩, closing.notified⟩
  | setStop =>
    obtain ⟨⟨alive, _⟩, _⟩ := Option.ite_none_right_eq_some.mp stepped
    exact absurd (alive.symm.trans joining) nofun
  | notifyAll =>
    obtain ⟨notifying, _⟩ := Option.ite_none_right_eq_some.mp stepped
    exact absurd (notifying.symm.trans joining) nofun
  | join =>
    cases step_cases stepped with
    | join next returned =>
      have inside := (List.getElem?_eq_some_iff.mp returned).1
      refine ⟨⟨locked, sound, closing.stopped, ⟨_, rfl⟩, closing.notified⟩, ?_, rfl⟩
      simp only [remaining, next]
      omega

theorem Closing.run {moves : List (Move T)} (closing : s.Closing)
    (run : Run ThreadPool.step Quiet s moves t) : t.Closing ∧
      moves.length + t.remaining ≤ s.remaining ∧
      t.workers.countP stranded = s.workers.countP stranded := by
  induction run with
  | refl => exact ⟨closing, Nat.le_of_eq (Nat.zero_add _), rfl⟩
  | next quiet stepped _ ih =>
    obtain ⟨kept, fewer, same⟩ := closing.step quiet stepped
    obtain ⟨last, bound, still⟩ := ih kept
    refine ⟨last, ?_, still.trans same⟩
    rw [List.length_cons]
    omega

/-- When nothing moves any more all workers have returned or sleep. -/
theorem Closing.at_rest (closing : s.Closing)
    (stuck : ∀ move, Quiet s move → s.step move = none) :
    ∀ phase ∈ s.workers, phase = .returned ∨ phase = .waiting := by
  have blocked : ∀ {k : Nat} {phase : WorkerPhase T}, s.workers[k]? = some phase →
      s.work k phase = none := by
    intro k phase here
    have idle := stuck (.work k) nofun
    rwa [ThreadPool.step, here, Option.bind_some] at idle
  intro phase member
  obtain ⟨k, here⟩ := List.getElem?_of_mem member
  have idle := blocked here
  cases phase with
  | returned => exact .inl rfl
  | waiting => exact .inr rfl
  | locking =>
    -- Whoever has the lock can move.
    have held : s.queueMutex ≠ none := fun free => by simp [work, free] at idle
    obtain ⟨j, held⟩ := Option.ne_none_iff_exists'.mp held
    obtain ⟨other, there, inside⟩ := closing.locked.holder held
    have idle := blocked there
    cases other with
    | testing | parking => cases idle
    | chosen =>
      simp only [work] at idle
      split at idle <;> cases idle
    | _ => cases inside
  | chosen =>
    simp only [work] at idle
    split at idle <;> cases idle
  | _ => cases idle

/-- The destructor has joined everybody exactly if nobody sleeps. -/
theorem Closing.joined_iff (closing : s.Closing)
    (stuck : ∀ move, Quiet s move → s.step move = none) :
    s.Joined ↔ s.workers.countP stranded = 0 := by
  have rest := closing.at_rest stuck
  rw [List.countP_eq_zero]
  constructor
  · intro joined phase member
    rw [closing.sound.all_returned joined phase member]
    exact Bool.false_ne_true
  · intro awake
    obtain ⟨joined, joining⟩ := closing.joining
    have gone := closing.sound.gone joining
    have within : joined ≤ s.workers.length := by
      by_contra beyond
      have last := gone s.workers.length (Nat.not_le.mp beyond)
      rw [List.getElem?_eq_none (Nat.le_refl _)] at last
      cases last
    rcases Nat.lt_or_eq_of_le within with inside | all
    · have returned : s.workers[joined]? = some .returned := by
        rw [List.getElem?_eq_getElem inside]
        have member := List.getElem_mem inside
        rcases rest _ member with same | sleeps
        · rw [same]
        · exact absurd (by rw [sleeps]; rfl) (awake _ member)
      have idle := stuck .join nofun
      simp [ThreadPool.step, joining, returned] at idle
    · exact joining.trans (congrArg Destruction.joining all)

theorem closing_notifyAll {numThreads : Nat} {moves : List (Move T)}
    (run : Run step Free (start numThreads) moves s) (notifies : s.step .notifyAll = some t) :
    t.Closing ∧ t.remaining ≤ 6 * s.workers.length ∧
      t.workers.countP stranded = s.workers.countP fun phase => phase matches .parking := by
  have attended := run_attended run
  have sound : s.Sound :=
    run.invariant (fun sound _ stepped => sound.step stepped) (sound_start numThreads)
  have locked := attended.locked.step notifies
  have kept := sound.step notifies
  cases step_cases notifies with
  | notifyAll notifying =>
    have begun : s.destructor ≠ .notBegun := by
      rw [notifying]
      nofun
    refine ⟨⟨locked, kept, sound.begun begun, ⟨0, rfl⟩, attended.notified begun⟩, ?_, ?_⟩
    · have bound := sum_stepsLeft_le (s.workers.map wakePhase)
      rw [List.length_map] at bound
      simp only [remaining, List.length_map]
      omega
    · change (s.workers.map wakePhase).countP stranded = _
      rw [List.countP_map]
      apply List.countP_congr
      intro phase _
      cases phase <;> exact Iff.rfl

/-- After `notify_all` the pool comes to rest within six steps for each worker, if
nobody wakes up for nothing. The destructor has then returned exactly if at the time
of `notify_all` no worker was between its look at the predicate and its sleep;
otherwise it waits for that worker for ever. -/
theorem destructor_returns_iff {numThreads : Nat} {moves : List (Move T)}
    (run : Run step Free (start numThreads) moves s) (notifies : s.step .notifyAll = some t) :
    (∀ later u, Run step Quiet t later u → later.length ≤ 6 * s.workers.length) ∧
    ∀ later u, Run step Quiet t later u → (∀ move, Quiet u move → u.step move = none) →
      (u.Joined ↔ .parking ∉ s.workers) := by
  obtain ⟨closing, bound, parked⟩ := closing_notifyAll run notifies
  constructor
  · intro later u quietly
    have steps := (closing.run quietly).2.1
    omega
  · intro later u quietly stuck
    obtain ⟨last, _, same⟩ := closing.run quietly
    rw [last.joined_iff stuck, same, parked, List.countP_eq_zero]
    constructor
    · intro nobody parking
      exact nobody _ parking rfl
    · intro nobody phase member parks
      cases phase with
      | parking => exact nobody member
      | _ => cases parks

/-- The only worker goes to sleep after `notify_all`, and the destructor never returns. -/
theorem destructor_stuck : ∃ s t u : ThreadPool Nat, .parking ∈ s.workers ∧
    s.step .notifyAll = some t ∧ Run step Quiet t [.work 0] u ∧
    (∀ move, Quiet u move → u.step move = none) ∧ ¬ u.Joined := by
  obtain ⟨s, executed, parking, checked⟩ := evaluated
    (o := execute step (start 1) [.work 0, .work 0, .work 0, .setStop])
    (P := fun s : ThreadPool Nat => .parking ∈ s.workers ∧ ((s.step .notifyAll).any fun t =>
      t.destructor = .joining 0 ∧ t.toNotify = 0 ∧ ((t.step (.work 0)).any fun u =>
        u.workers = [.waiting] ∧ u.destructor = .joining 0 ∧ u.toNotify = 0) = true) = true)
    (by decide)
  obtain ⟨t, notifies, joining, due, checked⟩ := evaluated checked
  obtain ⟨u, parked, workers, last, due⟩ := evaluated checked
  have quietly : Run step Quiet t [.work 0] u := .single nofun parked
  have stuck : ∀ move, Quiet u move → u.step move = none := by
    intro move quiet
    cases move with
    | enqueue task => simp [step, last]
    | notifyOne worker => simp [step, due]
    | wakeSpuriously k => exact absurd rfl (quiet k)
    | work k =>
      cases k with
      | zero => simp [step, workers, work]
      | succ k => simp [step, workers]
    | setStop => simp [step, last]
    | notifyAll => simp [step, last]
    | join => simp [step, last, workers]
  refine ⟨s, t, u, parking, notifies, quietly, stuck, fun joined => ?_⟩
  exact ((destructor_returns_iff (execute_run _ executed) notifies).2 _ u quietly stuck).mp joined
    parking

end ThreadPool
end SocketMessaging
