import Mathlib.Data.List.Basic
import SocketMessaging.Library.Runs

/-! Threads that take and give back locks. A lock is held by one thread at a time, and
a thread that wants one which is held has to wait. Where all threads take their locks
in the order of ranks, whatever they have begun can be brought to its end. -/
universe u

inductive LockOp (L : Type u) where
  | acquire (lock : L)
  | release (lock : L)
  deriving DecidableEq

/-- A thread with the locks that it holds and what it has begun and not yet done. -/
structure Locker (L : Type u) where
  held : List L
  todo : List (LockOp L)
  deriving DecidableEq

abbrev Locks (L : Type u) := List (Locker L)

namespace Locks
open Transition
variable {L : Type u} {rank : L → Nat} {held inner : List L} {todo ops : List (LockOp L)}
  {lock : L}

section Order
variable [DecidableEq L]

/-- Each lock taken has a higher rank than those held, and none is kept. -/
def Ordered (rank : L → Nat) : List L → List (LockOp L) → Prop
  | held, [] => held = []
  | held, .acquire lock :: todo =>
    (∀ other ∈ held, rank other < rank lock) ∧ Ordered rank (lock :: held) todo
  | held, .release lock :: todo => lock ∈ held ∧ Ordered rank (held.erase lock) todo

instance Ordered.decidable (rank : L → Nat) : ∀ held todo, Decidable (Ordered rank held todo)
  | held, [] => inferInstanceAs (Decidable (held = []))
  | held, .acquire lock :: todo =>
    have := Ordered.decidable rank (lock :: held) todo
    inferInstanceAs (Decidable (_ ∧ _))
  | held, .release lock :: todo =>
    have := Ordered.decidable rank (held.erase lock) todo
    inferInstanceAs (Decidable (_ ∧ _))

/-- What a thread does on top of what it has begun, with locks of higher ranks only. -/
theorem Ordered.within (begun : Ordered rank held todo)
    (above : ∀ lock, .acquire lock ∈ ops → ∀ other ∈ held, rank other < rank lock)
    (ordered : Ordered rank inner ops) : Ordered rank (inner ++ held) (ops ++ todo) := by
  induction ops generalizing inner with
  | nil =>
    have none : inner = [] := ordered
    rw [none]
    exact begun
  | cons op ops ih =>
    have rest : ∀ {inner}, Ordered rank inner ops → Ordered rank (inner ++ held) (ops ++ todo) :=
      ih fun lock member => above lock (List.mem_cons_of_mem _ member)
    cases op with
    | acquire lock =>
      refine ⟨fun other member => ?_, rest ordered.2⟩
      rcases List.mem_append.mp member with own | outer
      · exact ordered.1 other own
      · exact above lock List.mem_cons_self other outer
    | release lock =>
      refine ⟨List.mem_append_left _ ordered.1, ?_⟩
      rw [List.erase_append_left _ ordered.1]
      exact rest ordered.2

theorem Ordered.called (begun : Ordered rank held todo)
    (above : ∀ lock, .acquire lock ∈ ops → ∀ other ∈ held, rank other < rank lock)
    (ordered : Ordered rank [] ops) : Ordered rank held (ops ++ todo) :=
  begun.within above ordered

end Order

inductive Move (L : Type u) where
  /-- A thread begins something, on top of what it has begun before. -/
  | call (thread : Nat) (ops : List (LockOp L))
  | go (thread : Nat)

def Move.begun : Move L → Option (Nat × List (LockOp L))
  | .call k ops => some (k, ops)
  | .go _ => none

section Running
variable [DecidableEq L] {s t : Locks L} {thread after : Locker L} {k : Nat}

/-- The next step of a thread; `none` while it waits or has nothing to do. -/
def advance (s : Locks L) : Locker L → Option (Locker L)
  | ⟨held, .acquire lock :: todo⟩ =>
    if ∀ other ∈ s, lock ∉ other.held then some ⟨lock :: held, todo⟩ else none
  | ⟨held, .release lock :: todo⟩ => some ⟨held.erase lock, todo⟩
  | ⟨_, []⟩ => none

/-- `none` means that the move is not enabled. -/
def step (s : Locks L) : Move L → Option (Locks L)
  | .call k ops => s[k]?.map fun thread => s.set k { thread with todo := ops ++ thread.todo }
  | .go k => (s[k]?.bind s.advance).map (s.set k)

/-- Nothing new is begun. -/
def Going (_ : Locks L) : Move L → Prop
  | .call _ _ => False
  | .go _ => True

/-- Only threads with nothing left to do begin something, and only this. -/
def Calls (P : List (LockOp L) → Prop) (s : Locks L) : Move L → Prop
  | .call k ops => P ops ∧ ∀ thread, s[k]? = some thread → thread.todo = []
  | .go _ => True

def Orderly (rank : L → Nat) (s : Locks L) : Prop :=
  ∀ thread ∈ s, Ordered rank thread.held thread.todo

/-- How many steps are left to do. -/
def remaining (s : Locks L) : Nat := (s.flatMap Locker.todo).length

theorem advance_cases (advanced : s.advance thread = some after) :
    (∃ lock, thread.todo = .acquire lock :: after.todo ∧ after.held = lock :: thread.held ∧
      ∀ other ∈ s, lock ∉ other.held) ∨
    ∃ lock, thread.todo = .release lock :: after.todo ∧ after.held = thread.held.erase lock := by
  obtain ⟨held, todo⟩ := thread
  cases todo with
  | nil => cases advanced
  | cons op todo =>
    cases op with
    | acquire lock =>
      obtain ⟨free, same⟩ := Option.ite_none_right_eq_some.mp advanced
      cases same
      exact .inl ⟨lock, rfl, rfl, free⟩
    | release lock =>
      cases advanced
      exact .inr ⟨lock, rfl, rfl⟩

theorem go_cases (stepped : step s (.go k) = some t) : ∃ thread after,
    s[k]? = some thread ∧ s.advance thread = some after ∧ t = s.set k after := by
  obtain ⟨after, advanced, same⟩ := Option.map_eq_some_iff.mp stepped
  obtain ⟨thread, present, advanced⟩ := Option.bind_eq_some_iff.mp advanced
  exact ⟨thread, after, present, advanced, same.symm⟩

theorem Orderly.set (orderly : Orderly rank s) (ordered : Ordered rank after.held after.todo) :
    Orderly rank (s.set k after) := by
  intro other member
  rcases List.mem_or_eq_of_mem_set member with old | rfl
  · exact orderly other old
  · exact ordered

theorem Orderly.go (orderly : Orderly rank s) (stepped : step s (.go k) = some t) :
    Orderly rank t := by
  obtain ⟨thread, after, present, advanced, rfl⟩ := go_cases stepped
  have ordered := orderly thread (List.mem_of_getElem? present)
  apply orderly.set
  rcases advance_cases advanced with ⟨lock, todo, held, _⟩ | ⟨lock, todo, held⟩
  · rw [todo] at ordered
    rw [held]
    exact ordered.2
  · rw [todo] at ordered
    rw [held]
    exact ordered.2

theorem remaining_go (stepped : step s (.go k) = some t) : remaining t + 1 = remaining s := by
  obtain ⟨thread, after, present, advanced, rfl⟩ := go_cases stepped
  have fewer : after.todo.length + 1 = thread.todo.length := by
    rcases advance_cases advanced with ⟨lock, todo, _⟩ | ⟨lock, todo, _⟩
    · rw [todo, List.length_cons]
    · rw [todo, List.length_cons]
  obtain ⟨inside, here⟩ := List.getElem?_eq_some_iff.mp present
  have before : s = s.take k ++ thread :: s.drop (k + 1) := by
    rw [← here, List.getElem_cons_drop, List.take_append_drop]
  rw [remaining, remaining, List.set_eq_take_append_cons_drop, if_pos inside]
  conv_rhs => rw [before]
  simp only [List.flatMap_append, List.flatMap_cons, List.length_append]
  omega

omit [DecidableEq L] in
/-- The locks that threads wait for have ranks below some bound. -/
theorem exists_bound (rank : L → Nat) (s : Locks L) : ∃ bound, ∀ thread ∈ s, ∀ lock todo,
    thread.todo = .acquire lock :: todo → rank lock < bound := by
  induction s with
  | nil => exact ⟨0, nofun⟩
  | cons first s ih =>
    obtain ⟨bound, below⟩ := ih
    obtain ⟨own, least⟩ : ∃ own, ∀ lock todo, first.todo = .acquire lock :: todo →
        rank lock < own := by
      cases begun : first.todo with
      | nil => exact ⟨0, fun lock todo same => by cases same⟩
      | cons op rest =>
        cases op with
        | acquire wanted =>
          refine ⟨rank wanted + 1, fun lock todo same => ?_⟩
          cases same
          exact Nat.lt_succ_self _
        | release => exact ⟨0, fun lock todo same => by cases same⟩
    refine ⟨max own bound, fun thread member lock todo same => ?_⟩
    rcases List.mem_cons.mp member with rfl | later
    · exact Nat.lt_of_lt_of_le (least lock todo same) (Nat.le_max_left _ _)
    · exact Nat.lt_of_lt_of_le (below thread later lock todo same) (Nat.le_max_right _ _)

/-- Among threads in the order of ranks, somebody can go on. If nobody could, each lock
waited for would be held by a thread that waits for one of a higher rank. -/
theorem Orderly.progress (orderly : Orderly rank s) (member : thread ∈ s)
    (busy : thread.todo ≠ []) : ∃ k, (step s (.go k)).isSome = true := by
  by_contra stuck
  have blocked : ∀ thread ∈ s, s.advance thread = none := by
    intro thread member
    obtain ⟨k, present⟩ := List.mem_iff_getElem?.mp member
    cases advanced : s.advance thread with
    | none => rfl
    | some after =>
      refine absurd ⟨k, ?_⟩ stuck
      rw [step, present, Option.bind_some, advanced]
      rfl
  have waits : ∀ thread ∈ s, thread.todo ≠ [] → ∃ lock todo,
      thread.todo = .acquire lock :: todo ∧ ∃ other ∈ s, lock ∈ other.held := by
    intro thread member busy
    have blocked := blocked thread member
    obtain ⟨held, todo⟩ := thread
    cases todo with
    | nil => exact absurd rfl busy
    | cons op todo =>
      cases op with
      | acquire lock =>
        refine ⟨lock, todo, rfl, ?_⟩
        by_contra free
        have nobody : ∀ other ∈ s, lock ∉ other.held :=
          fun other inside taken => free ⟨other, inside, taken⟩
        rw [advance, if_pos nobody] at blocked
        cases blocked
      | release => cases blocked
  have climbs : ∀ bound, ∃ thread ∈ s, ∃ lock todo,
      thread.todo = .acquire lock :: todo ∧ bound ≤ rank lock := by
    intro bound
    induction bound with
    | zero =>
      obtain ⟨lock, todo, begun, _⟩ := waits thread member busy
      exact ⟨thread, member, lock, todo, begun, Nat.zero_le _⟩
    | succ bound ih =>
      obtain ⟨waiting, inside, lock, todo, begun, high⟩ := ih
      have wanting : waiting.todo ≠ [] := by
        rw [begun]
        exact List.cons_ne_nil _ _
      obtain ⟨_, _, same, owner, present, owned⟩ := waits waiting inside wanting
      rw [begun] at same
      cases same
      have keeps := orderly owner present
      have working : owner.todo ≠ [] := by
        intro idle
        rw [idle] at keeps
        have empty : owner.held = [] := keeps
        rw [empty] at owned
        cases owned
      obtain ⟨next, rest, begun, _⟩ := waits owner present working
      rw [begun] at keeps
      exact ⟨owner, present, next, rest, begun, Nat.lt_of_le_of_lt high (keeps.1 _ owned)⟩
  obtain ⟨bound, below⟩ := exists_bound rank s
  obtain ⟨last, inside, lock, todo, begun, high⟩ := climbs bound
  exact absurd (below last inside lock todo begun) (Nat.not_lt.mpr high)

/-- All that has been begun can be brought to its end. -/
theorem Orderly.completes (orderly : Orderly rank s) : ∃ moves t, Run step Going s moves t ∧
    ∀ thread ∈ t, thread = ⟨[], []⟩ := by
  induction left : remaining s using Nat.strongRecOn generalizing s with
  | ind left ih =>
    by_cases busy : ∃ thread ∈ s, thread.todo ≠ []
    · obtain ⟨thread, member, busy⟩ := busy
      obtain ⟨k, enabled⟩ := orderly.progress member busy
      obtain ⟨next, stepped⟩ := Option.isSome_iff_exists.mp enabled
      have fewer := remaining_go stepped
      obtain ⟨moves, t, run, done⟩ := ih (remaining next) (by omega) (orderly.go stepped) rfl
      exact ⟨.go k :: moves, t, .next trivial stepped run, done⟩
    · refine ⟨[], s, .refl s, fun thread member => ?_⟩
      have idle : thread.todo = [] := by
        by_contra working
        exact busy ⟨thread, member, working⟩
      have keeps := orderly thread member
      rw [idle] at keeps
      have empty : thread.held = [] := keeps
      obtain ⟨held, todo⟩ := thread
      rw [Locker.mk.injEq]
      exact ⟨empty, idle⟩

theorem Orderly.step {P : List (LockOp L) → Prop} {move : Move L} (orderly : Orderly rank s)
    (each : ∀ ops, P ops → Ordered rank [] ops) (admitted : Calls P s move)
    (stepped : Locks.step s move = some t) : Orderly rank t := by
  cases move with
  | go k => exact orderly.go stepped
  | call k ops =>
    obtain ⟨thread, present, rfl⟩ := Option.map_eq_some_iff.mp stepped
    have keeps := orderly thread (List.mem_of_getElem? present)
    have idle := admitted.2 thread present
    rw [idle] at keeps
    have empty : thread.held = [] := keeps
    apply orderly.set
    rw [idle, List.append_nil, empty]
    exact each ops admitted.1

theorem Orderly.run {P : List (LockOp L) → Prop} {moves : List (Move L)} (orderly : Orderly rank s)
    (each : ∀ ops, P ops → Ordered rank [] ops) (run : Run Locks.step (Calls P) s moves t) :
    Orderly rank t :=
  run.invariant (fun orderly admitted stepped => orderly.step each admitted stepped) orderly

theorem length_step {move : Move L} (stepped : step s move = some t) : t.length = s.length := by
  cases move with
  | call k ops =>
    obtain ⟨thread, _, rfl⟩ := Option.map_eq_some_iff.mp stepped
    exact List.length_set
  | go k =>
    obtain ⟨_, _, _, _, rfl⟩ := go_cases stepped
    exact List.length_set

theorem begun_of_going {moves : List (Move L)} (run : Run step Going s moves t) :
    moves.filterMap Move.begun = [] := by
  induction run with
  | refl => rfl
  | @next _ _ _ move moves going _ _ ih =>
    cases move with
    | call => exact going.elim
    | go => exact ih

/-- Before it comes to what is given, the thread wants a lock that it holds itself. -/
def Doomed (lock : L) (todo : List (LockOp L)) (thread : Locker L) : Prop :=
  lock ∈ thread.held ∧ ∃ before, thread.todo = before ++ .acquire lock :: todo ∧
    .release lock ∉ before

theorem Doomed.advance (doomed : Doomed lock todo thread) (member : thread ∈ s)
    (advanced : s.advance thread = some after) : Doomed lock todo after := by
  obtain ⟨held, before, split, kept⟩ := doomed
  cases before with
  | nil =>
    rcases advance_cases advanced with ⟨wanted, shape, _, free⟩ | ⟨_, shape, _⟩
    · cases split.symm.trans shape
      exact absurd held (free thread member)
    · cases split.symm.trans shape
  | cons op before =>
    have later : .release lock ∉ before := fun member => kept (List.mem_cons_of_mem _ member)
    rcases advance_cases advanced with ⟨taken, shape, grown, _⟩ | ⟨given, shape, fewer⟩
    · obtain ⟨_, rest⟩ := List.cons.inj (split.symm.trans shape)
      refine ⟨?_, before, rest.symm, later⟩
      rw [grown]
      exact List.mem_cons_of_mem _ held
    · obtain ⟨same, rest⟩ := List.cons.inj (split.symm.trans shape)
      refine ⟨?_, before, rest.symm, later⟩
      have other : lock ≠ given := by
        intro own
        rw [own, same] at kept
        exact kept List.mem_cons_self
      rw [fewer]
      exact (List.mem_erase_of_ne other).mpr held

theorem calls_of_going {P : List (LockOp L) → Prop} {moves : List (Move L)}
    (run : Run step Going s moves t) : Run step (Calls P) s moves t := by
  refine run.weaken fun s move going => ?_
  cases move with
  | call => exact going.elim
  | go => trivial

/-- It waits for itself for good. -/
theorem Doomed.run {P : List (LockOp L) → Prop} {moves : List (Move L)}
    (doomed : Doomed lock todo thread) (present : s[k]? = some thread)
    (run : Run step (Calls P) s moves t) : ∃ thread, t[k]? = some thread ∧
      Doomed lock todo thread := by
  refine run.invariant (P := fun s => ∃ thread, s[k]? = some thread ∧ Doomed lock todo thread)
    ?_ ⟨thread, present, doomed⟩
  intro s move t holds admitted stepped
  obtain ⟨thread, present, doomed⟩ := holds
  cases move with
  | call j ops =>
    obtain ⟨caller, here, rfl⟩ := Option.map_eq_some_iff.mp stepped
    by_cases own : j = k
    · subst own
      have idle := admitted.2 thread present
      obtain ⟨_, before, split, _⟩ := doomed
      rw [idle] at split
      exact absurd split.symm (by simp)
    · refine ⟨thread, ?_, doomed⟩
      rw [List.getElem?_set_ne own]
      exact present
  | go j =>
    obtain ⟨mover, moved, here, advanced, rfl⟩ := go_cases stepped
    by_cases own : j = k
    · subst own
      cases present.symm.trans here
      refine ⟨moved, ?_, doomed.advance (List.mem_of_getElem? present) advanced⟩
      exact List.getElem?_set_self (List.getElem?_eq_some_iff.mp present).1
    · refine ⟨thread, ?_, doomed⟩
      rw [List.getElem?_set_ne own]
      exact present

omit [DecidableEq L] in
theorem Doomed.longer (doomed : Doomed lock todo thread) : todo.length < thread.todo.length := by
  obtain ⟨_, before, split, _⟩ := doomed
  rw [split, List.length_append, List.length_cons]
  omega

end Running
end Locks
