import Mathlib.Init

/-! Loops whose rounds use up something. A round ends the loop, leaves less of it, or
leaves the loop dead: from then on it goes round and round. So a loop either ends within
as many rounds as there is something to use up, or it never does. -/
universe u

namespace Rounds
variable {S : Type u}

/-- The state after so many rounds; `none` once one of them has ended the loop. -/
def after (round : Nat → S → Option S) (s : S) : Nat → Option S
  | 0 => some s
  | n + 1 => (after round s n).bind (round n)

structure Drains (round : Nat → S → Option S) (size : S → Nat) (Dead : S → Prop) : Prop where
  dead : ∀ (n : Nat) {s : S}, Dead s → ∃ t, round n s = some t ∧ Dead t
  less : ∀ {n : Nat} {s t : S}, round n s = some t → Dead t ∨ size t < size s

variable {round : Nat → S → Option S} {size : S → Nat} {Dead : S → Prop} {s t : S} {n : Nat}

/-- A dead loop stays dead. -/
theorem Drains.forever (drains : Drains round size Dead) (reached : after round s n = some t)
    (dead : Dead t) {m : Nat} (later : n ≤ m) : ∃ t, after round s m = some t ∧ Dead t := by
  induction later with
  | refl => exact ⟨t, reached, dead⟩
  | step _ ih =>
    obtain ⟨t, reached, dead⟩ := ih
    obtain ⟨next, moved, dead⟩ := drains.dead _ dead
    exact ⟨next, by rw [after, reached, Option.bind_some, moved], dead⟩

/-- What is left pays for the rounds to come. -/
theorem Drains.paid (drains : Drains round size Dead) (n : Nat)
    (reached : after round s n = some t) : Dead t ∨ size t + n ≤ size s := by
  induction n generalizing t with
  | zero =>
    cases reached
    exact .inr (Nat.le_refl _)
  | succ n ih =>
    obtain ⟨before, earlier, moved⟩ := Option.bind_eq_some_iff.mp reached
    rcases ih earlier with dead | paid
    · obtain ⟨next, same, dead⟩ := drains.dead n dead
      rw [moved] at same
      cases same
      exact .inl dead
    · rcases drains.less moved with dead | less
      · exact .inl dead
      · exact .inr (by omega)

/-- The loop ends within as many rounds as there is something to use up, or it is dead. -/
theorem Drains.decided (drains : Drains round size Dead) (s : S) :
    after round s (size s + 1) = none ∨
      ∀ m, size s < m → ∃ t, after round s m = some t ∧ Dead t := by
  cases reached : after round s (size s + 1) with
  | none => exact .inl rfl
  | some t =>
    refine .inr fun m later => ?_
    rcases drains.paid _ reached with dead | paid
    · exact drains.forever reached dead later
    · omega

end Rounds
