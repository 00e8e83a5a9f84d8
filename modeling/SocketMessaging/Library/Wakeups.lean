import Mathlib.Init

/-! Threads that wait for work on a condition variable. Work is counted, and so are
the threads that sleep, those that are awake and have yet to look for work, and the
notifications that are due. A thread that finds work becomes busy and is not counted
until it comes back. Each step says what it needs so that no work is overlooked. -/

structure Wakeups where
  asleep : Nat
  awake : Nat
  queued : Nat
  due : Nat

namespace Wakeups
variable {t u : Wakeups}

inductive Step (t : Wakeups) : Wakeups → Prop where
  /-- New work, for which somebody is going to be notified. -/
  | push : Step t { t with queued := t.queued + 1, due := t.due + 1 }
  /-- A sleeping thread is woken, by a notification or by nothing. -/
  | wake {due : Nat} : t.due ≤ due + 1 →
      Step t { t with asleep := t.asleep - 1, awake := t.awake + 1, due }
  /-- A notification finds nobody asleep. -/
  | drop {due : Nat} : t.asleep = 0 → Step t { t with due }
  | take : Step t { t with awake := t.awake - 1, queued := t.queued - 1 }
  | rejoin : Step t { t with awake := t.awake + 1 }
  /-- A thread looks for work in vain, or goes to sleep after that. -/
  | idle {asleep awake : Nat} : t.queued = 0 → Step t { t with asleep, awake }
  | stutter : Step t t

/-- While a thread sleeps all work is accounted for, by a thread that is going to look
for it or by a notification that is due. -/
def Covered (t : Wakeups) : Prop := 0 < t.asleep → t.queued ≤ t.due + t.awake

theorem Step.covered (step : Step t u) (covered : t.Covered) : u.Covered := by
  unfold Covered at covered ⊢
  cases step with
  | push =>
    intro asleep
    have before := covered asleep
    dsimp only
    omega
  | wake fewer =>
    intro asleep
    have before := covered (Nat.lt_of_lt_of_le asleep (Nat.sub_le _ _))
    dsimp only
    omega
  | drop nobody => exact fun asleep => absurd nobody (Nat.ne_of_gt asleep)
  | take =>
    intro asleep
    have before := covered asleep
    dsimp only
    omega
  | rejoin =>
    intro asleep
    have before := covered asleep
    dsimp only
    omega
  | idle empty =>
    intro _
    dsimp only
    omega
  | stutter => exact covered

end Wakeups
