import Mathlib.Logic.Function.Basic
import Mathlib.Logic.Relation

/-! Named sessions over recycled handles. Owners acquire handles, names are
registered for handles, and a released handle may be acquired again by another
owner. The operations are total, so a table can go wrong; the two invariants
say when it has not, and each rule states what an operation needs to keep them. -/
namespace Sessions
universe u v w

structure Table (N : Type u) (H : Type v) (O : Type w) where
  /-- The handle that a registered name stands for. -/
  handleOf : N → Option H
  /-- The owner for which a name was last registered. -/
  registrant : N → Option O
  /-- The owner that has acquired a handle and not released it. -/
  user : H → Option O
  /-- The owner that acquired a handle last. -/
  holder : H → Option O
  /-- How often a handle held by this owner has been released. -/
  released : O → Nat

namespace Table
variable {N : Type u} {H : Type v} {O : Type w} [DecidableEq N] [DecidableEq H] [DecidableEq O]
  {t : Table N H O} {name other : N} {handle next : H} {owner o : O} {opened : O → Prop}

def acquire (handle : H) (owner : O) (t : Table N H O) : Table N H O :=
  { t with
    user := Function.update t.user handle (some owner)
    holder := Function.update t.holder handle (some owner) }

def register (name : N) (handle : H) (t : Table N H O) : Table N H O :=
  { t with
    handleOf := Function.update t.handleOf name (some handle)
    registrant := Function.update t.registrant name (t.holder handle) }

def unregister (name : N) (t : Table N H O) : Table N H O :=
  { t with handleOf := Function.update t.handleOf name none }

/-- A release counts for the last holder even if the handle is not in use. -/
def release (handle : H) (t : Table N H O) : Table N H O :=
  { t with
    user := Function.update t.user handle none
    released := match t.holder handle with
      | some owner => Function.update t.released owner (t.released owner + 1)
      | none => t.released }

/-- Forget the name and release its handle. -/
def logout (name : N) (handle : H) (t : Table N H O) : Table N H O :=
  (t.unregister name).release handle

/-- Each name stands for a handle in use by the owner that registered it, and
no handle carries two names. -/
structure Exclusive (t : Table N H O) : Prop where
  live : ∀ {name handle}, t.handleOf name = some handle →
    ∃ owner, t.user handle = some owner ∧ t.registrant name = some owner
  single : ∀ {name other handle}, t.handleOf name = some handle →
    t.handleOf other = some handle → name = other
  held : ∀ {handle owner}, t.user handle = some owner → t.holder handle = some owner

/-- Handles in use have not been released, and each owner that no longer uses
one has released it exactly once. -/
structure Accounted (opened : O → Prop) (t : Table N H O) : Prop where
  known : ∀ {handle owner}, t.holder handle = some owner → opened owner
  one : ∀ {handle next owner}, t.user handle = some owner → t.user next = some owner → handle = next
  using_none : ∀ {handle owner}, t.user handle = some owner → t.released owner = 0
  fresh : ∀ {owner}, ¬ opened owner → t.released owner = 0
  gone : ∀ {owner}, opened owner → (∀ handle, t.user handle ≠ some owner) → t.released owner = 1

omit [DecidableEq N] [DecidableEq O] in
theorem Exclusive.acquire (safe : Exclusive t) (free : t.user handle = none) (owner : O) :
    Exclusive (t.acquire handle owner) where
  live := by
    intro name' handle' named
    obtain ⟨user, used, registered⟩ := safe.live named
    have apart : handle' ≠ handle := fun same => by simp [← same, used] at free
    exact ⟨user, (Function.update_of_ne apart _ _).trans used, registered⟩
  single := safe.single
  held := by
    intro handle' owner' used
    by_cases same : handle' = handle
    · subst same
      simpa [Table.acquire] using used
    · simp only [Table.acquire, Function.update_of_ne same] at used ⊢
      exact safe.held used

omit [DecidableEq H] [DecidableEq O] in
theorem Exclusive.register (safe : Exclusive t) (used : t.user handle = some owner)
    (unnamed : ∀ other, t.handleOf other ≠ some handle) (name : N) :
    Exclusive (t.register name handle) where
  live := by
    intro name' handle' named
    by_cases same : name' = name
    · subst same
      simp only [Table.register, Function.update_self, Option.some.injEq] at named ⊢
      exact ⟨owner, named ▸ used, safe.held used⟩
    · simp only [Table.register, Function.update_of_ne same] at named ⊢
      exact safe.live named
  single := by
    intro first second handle' firstNamed secondNamed
    have old : ∀ {other}, other ≠ name → (t.register name handle).handleOf other = some handle' →
        t.handleOf other = some handle' := by
      intro other apart named
      simpa only [Table.register, Function.update_of_ne apart] using named
    have new : (t.register name handle).handleOf name = some handle' → handle = handle' := by
      intro named
      simpa [Table.register] using named
    by_cases first_eq : first = name <;> by_cases second_eq : second = name
    · rw [first_eq, second_eq]
    · rw [first_eq] at firstNamed
      exact absurd (old second_eq secondNamed) (new firstNamed ▸ unnamed second)
    · rw [second_eq] at secondNamed
      exact absurd (old first_eq firstNamed) (new secondNamed ▸ unnamed first)
    · exact safe.single (old first_eq firstNamed) (old second_eq secondNamed)
  held := safe.held

omit [DecidableEq H] [DecidableEq O] in
theorem handleOf_unregister (named : (t.unregister name).handleOf other = some handle) :
    other ≠ name ∧ t.handleOf other = some handle := by
  by_cases same : other = name
  · simp [Table.unregister, same] at named
  · simp only [Table.unregister, Function.update_of_ne same] at named
    exact ⟨same, named⟩

omit [DecidableEq H] [DecidableEq O] in
theorem Exclusive.unregister (safe : Exclusive t) (name : N) : Exclusive (t.unregister name) where
  live := fun named => safe.live (handleOf_unregister named).2
  single := fun first second =>
    safe.single (handleOf_unregister first).2 (handleOf_unregister second).2
  held := safe.held

omit [DecidableEq N] in
theorem Exclusive.release (safe : Exclusive t) (unnamed : ∀ name, t.handleOf name ≠ some handle) :
    Exclusive (t.release handle) where
  live := by
    intro name handle' named
    obtain ⟨owner, used, registered⟩ := safe.live named
    have apart : handle' ≠ handle := fun same => unnamed name (same ▸ named)
    exact ⟨owner, (Function.update_of_ne apart _ _).trans used, registered⟩
  single := safe.single
  held := by
    intro handle' owner used
    by_cases same : handle' = handle
    · simp [Table.release, same] at used
    · simp only [Table.release, Function.update_of_ne same] at used
      exact safe.held used

theorem Exclusive.logout (safe : Exclusive t) (named : t.handleOf name = some handle) :
    Exclusive (t.logout name handle) := by
  refine (safe.unregister name).release fun other otherNamed => ?_
  obtain ⟨apart, old⟩ := handleOf_unregister otherNamed
  exact apart (safe.single old named)

omit [DecidableEq N] [DecidableEq O] in
theorem Accounted.acquire (counted : Accounted opened t) (safe : Exclusive t)
    (free : t.user handle = none) (new : ¬ opened owner) :
    Accounted (fun o => opened o ∨ o = owner) (t.acquire handle owner) := by
  have unused : ∀ {next}, t.user next ≠ some owner := fun used =>
    new (counted.known (safe.held used))
  constructor
  · intro handle' owner' holds
    by_cases same : handle' = handle
    · subst same
      simp only [Table.acquire, Function.update_self, Option.some.injEq] at holds
      exact Or.inr holds.symm
    · simp only [Table.acquire, Function.update_of_ne same] at holds
      exact Or.inl (counted.known holds)
  · intro first second owner' firstUsed secondUsed
    by_cases first_eq : first = handle <;> by_cases second_eq : second = handle
    · rw [first_eq, second_eq]
    · simp only [Table.acquire, first_eq, Function.update_self, Option.some.injEq] at firstUsed
      simp only [Table.acquire, Function.update_of_ne second_eq] at secondUsed
      exact absurd (firstUsed ▸ secondUsed) unused
    · simp only [Table.acquire, second_eq, Function.update_self, Option.some.injEq] at secondUsed
      simp only [Table.acquire, Function.update_of_ne first_eq] at firstUsed
      exact absurd (secondUsed ▸ firstUsed) unused
    · simp only [Table.acquire, Function.update_of_ne first_eq] at firstUsed
      simp only [Table.acquire, Function.update_of_ne second_eq] at secondUsed
      exact counted.one firstUsed secondUsed
  · intro handle' owner' used
    by_cases same : handle' = handle
    · simp only [Table.acquire, same, Function.update_self, Option.some.injEq] at used
      exact used ▸ counted.fresh new
    · simp only [Table.acquire, Function.update_of_ne same] at used
      exact counted.using_none used
  · intro owner' unopened
    exact counted.fresh fun was => unopened (Or.inl was)
  · intro owner' known idle
    rcases known with known | rfl
    · apply counted.gone known
      intro handle' used
      by_cases same : handle' = handle
      · simp [same, free] at used
      · exact idle handle' (by simpa only [Table.acquire, Function.update_of_ne same] using used)
    · exact False.elim (idle handle (by simp [Table.acquire]))

omit [DecidableEq N] in
theorem Accounted.release (counted : Accounted opened t) (safe : Exclusive t)
    (used : t.user handle = some owner) : Accounted opened (t.release handle) := by
  have holds := safe.held used
  have count : ∀ o, (t.release handle).released o = if o = owner then 1 else t.released o := by
    intro o
    simp only [Table.release, holds, Function.update_apply]
    split
    · rw [counted.using_none used]
    · rfl
  have old : ∀ {handle' o}, (t.release handle).user handle' = some o →
      handle' ≠ handle ∧ t.user handle' = some o := by
    intro handle' o stillUsed
    by_cases same : handle' = handle
    · simp [Table.release, same] at stillUsed
    · simp only [Table.release, Function.update_of_ne same] at stillUsed
      exact ⟨same, stillUsed⟩
  constructor
  · exact counted.known
  · exact fun first second => counted.one (old first).2 (old second).2
  · intro handle' o stillUsed
    obtain ⟨apart, was⟩ := old stillUsed
    have different : o ≠ owner := fun same => apart (counted.one was (same ▸ used))
    rw [count, if_neg different, counted.using_none was]
  · intro o unopened
    have different : o ≠ owner := fun same => unopened (same ▸ counted.known holds)
    rw [count, if_neg different, counted.fresh unopened]
  · intro o known idle
    by_cases same : o = owner
    · rw [count, if_pos same]
    · rw [count, if_neg same]
      refine counted.gone known fun handle' was => idle handle' ?_
      have apart : handle' ≠ handle := fun handles =>
        same (Option.some.inj ((handles ▸ was).symm.trans used))
      simpa only [Table.release, Function.update_of_ne apart] using was

/-- The changes that keep both invariants. -/
inductive Safe : Table N H O → Table N H O → Prop where
  | register {t : Table N H O} {handle : H} {owner : O} (name : N) : t.user handle = some owner →
      (∀ other, t.handleOf other ≠ some handle) → Safe t (t.register name handle)
  | release {t : Table N H O} {handle : H} {owner : O} : t.user handle = some owner →
      (∀ name, t.handleOf name ≠ some handle) → Safe t (t.release handle)
  | logout {t : Table N H O} {name : N} {handle : H} : t.handleOf name = some handle →
      Safe t (t.logout name handle)

theorem Safe.exclusive {after : Table N H O} (change : Safe t after) (safe : Exclusive t) :
    Exclusive after := by
  cases change with
  | register name used unnamed => exact safe.register used unnamed name
  | release used unnamed => exact safe.release unnamed
  | logout named => exact safe.logout named

theorem Safe.accounted {after : Table N H O} (change : Safe t after) (safe : Exclusive t)
    (counted : Accounted opened t) : Accounted opened after := by
  cases change with
  | register name used unnamed =>
    exact ⟨counted.known, counted.one, counted.using_none, counted.fresh, counted.gone⟩
  | release used unnamed => exact counted.release safe used
  | @logout name handle named =>
    obtain ⟨owner, used, _⟩ := safe.live named
    have forgotten : Accounted opened (t.unregister name) :=
      ⟨counted.known, counted.one, counted.using_none, counted.fresh, counted.gone⟩
    exact forgotten.release (safe.unregister _) used

/-- Handles are only freed along the way, never taken. -/
theorem Safe.user {after : Table N H O} (change : Safe t after) {handle : H} {owner : O}
    (used : after.user handle = some owner) : t.user handle = some owner := by
  have kept : ∀ {freed : H}, (t.release freed).user handle = some owner → t.user handle = some owner := by
    intro freed used
    by_cases same : handle = freed
    · simp [Table.release, same] at used
    · simpa only [Table.release, Function.update_of_ne same] using used
  cases change with
  | register name _ _ => exact used
  | release _ _ => exact kept used
  | logout named => exact kept used

theorem exclusive_of_safe {after : Table N H O} (changes : Relation.ReflTransGen Safe t after)
    (safe : Exclusive t) : Exclusive after := by
  induction changes with
  | refl => exact safe
  | tail _ change ih => exact change.exclusive ih

theorem accounted_of_safe {after : Table N H O} (changes : Relation.ReflTransGen Safe t after)
    (safe : Exclusive t) (counted : Accounted opened t) : Accounted opened after := by
  induction changes with
  | refl => exact counted
  | tail before change ih => exact change.accounted (exclusive_of_safe before safe) ih

theorem user_of_safe {after : Table N H O} (changes : Relation.ReflTransGen Safe t after)
    {handle : H} {owner : O} (used : after.user handle = some owner) :
    t.user handle = some owner := by
  induction changes with
  | refl => exact used
  | tail _ change ih => exact ih (change.user used)

end Table
end Sessions
