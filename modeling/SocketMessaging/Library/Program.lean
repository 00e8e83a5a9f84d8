import Mathlib.Init

/-! Sequential programs over an interface of atomic actions. A program is a
tree of the actions it performs, so the same text can be run to completion by
one thread or be advanced one action at a time between other threads. The
interface, the state and the meaning of an action are parameters. -/
universe u

inductive Prog (A : Type → Type) (α : Type) : Type 1 where
  | done (value : α)
  | act {β : Type} (action : A β) (next : β → Prog A α)

namespace Prog
variable {A : Type → Type} {α β : Type} {σ : Type u}

def bind : Prog A α → (α → Prog A β) → Prog A β
  | .done value, following => following value
  | .act action next, following => .act action fun result => (next result).bind following

instance : Monad (Prog A) where
  pure := .done
  bind := bind

/-- The program that performs one action and returns its result. -/
def perform (action : A α) : Prog A α := .act action .done

@[simp] theorem pure_eq (value : α) : (pure value : Prog A α) = .done value := rfl

@[simp] theorem done_bind (value : α) (following : α → Prog A β) :
    (Prog.done value >>= following) = following value := rfl

@[simp] theorem act_bind {γ : Type} (action : A γ) (next : γ → Prog A α)
    (following : α → Prog A β) :
    (Prog.act action next >>= following) = .act action fun result => next result >>= following := rfl

@[simp] theorem perform_bind (action : A α) (following : α → Prog A β) :
    (perform action >>= following) = .act action following := rfl

theorem bind_done (program : Prog A α) : (program >>= Prog.done) = program := by
  induction program with
  | done value => rfl
  | act action next ih => exact congrArg (Prog.act action) (funext ih)

/-- Run without interruption. `exec` gives each action its result and effect. -/
def run (exec : ∀ {β : Type}, A β → σ → β × σ) : Prog A α → σ → α × σ
  | .done value, s => (value, s)
  | .act action next, s => (next (exec action s).1).run exec (exec action s).2

section Running
variable (exec : ∀ {β : Type}, A β → σ → β × σ)

@[simp] theorem run_ite {c : Prop} [Decidable c] (first second : Prog A α) (s : σ) :
    (if c then first else second).run exec s = if c then first.run exec s else second.run exec s := by
  split <;> rfl

@[simp] theorem run_done (value : α) (s : σ) : (Prog.done value : Prog A α).run exec s = (value, s) := rfl

theorem run_act {γ : Type} (action : A γ) (next : γ → Prog A α) (s : σ) :
    (Prog.act action next).run exec s = (next (exec action s).1).run exec (exec action s).2 := rfl

@[simp] theorem run_perform (action : A α) (s : σ) : (perform action).run exec s = exec action s := rfl

@[simp] theorem run_bind (program : Prog A α) (following : α → Prog A β) (s : σ) :
    (program >>= following).run exec s =
      (following (program.run exec s).1).run exec (program.run exec s).2 := by
  induction program generalizing s with
  | done value => rfl
  | act action next ih =>
    rw [act_bind, run_act, ih]
    rfl

end Running

/-- Every action the program can come to perform, whatever results the earlier
ones return, satisfies `P`. -/
def Only (P : ∀ {β : Type}, A β → Prop) : Prog A α → Prop
  | .done _ => True
  | .act action next => P action ∧ ∀ result, (next result).Only P

section Footprint
variable {P : ∀ {β : Type}, A β → Prop} {exec : ∀ {β : Type}, A β → σ → β × σ}

@[simp] theorem only_done (value : α) : (Prog.done value : Prog A α).Only P := trivial

@[simp] theorem only_act {γ : Type} (action : A γ) (next : γ → Prog A α) :
    (Prog.act action next).Only P ↔ P action ∧ ∀ result, (next result).Only P := Iff.rfl

@[simp] theorem only_perform (action : A α) : (perform action).Only P ↔ P action :=
  ⟨fun only => only.1, fun holds => ⟨holds, fun _ => trivial⟩⟩

@[simp] theorem only_ite {c : Prop} [Decidable c] {first second : Prog A α} :
    (if c then first else second).Only P ↔ (c → first.Only P) ∧ (¬ c → second.Only P) := by
  split <;> simp [*]

theorem Only.bind {program : Prog A α} {following : α → Prog A β} (first : program.Only P)
    (second : ∀ value, (following value).Only P) : (program >>= following).Only P := by
  induction program with
  | done value => exact second value
  | act action next ih =>
    rw [act_bind]
    exact ⟨first.1, fun result => ih result (first.2 result)⟩

theorem Only.and {Q : ∀ {β : Type}, A β → Prop} {program : Prog A α} (first : program.Only P)
    (second : program.Only Q) : program.Only fun action => P action ∧ Q action := by
  induction program with
  | done value => trivial
  | act action next ih =>
    exact ⟨⟨first.1, second.1⟩, fun result => ih result (first.2 result) (second.2 result)⟩

theorem Only.weaken {Q : ∀ {β : Type}, A β → Prop} {program : Prog A α} (only : program.Only P)
    (weaker : ∀ {β : Type} (action : A β), P action → Q action) : program.Only Q := by
  induction program with
  | done value => trivial
  | act action next ih => exact ⟨weaker action only.1, fun result => ih result (only.2 result)⟩

/-- The frame rule: what the admitted actions leave alone, the program leaves alone. -/
theorem Only.keeps {I : σ → Prop} {program : Prog A α} (only : program.Only P)
    (keeps : ∀ {β : Type} (action : A β) (s : σ), P action → I s → I (exec action s).2)
    {s : σ} (initial : I s) : I (program.run exec s).2 := by
  induction program generalizing s with
  | done value => exact initial
  | act action next ih =>
    rw [run_act]
    exact ih _ (only.2 _) (keeps action s only.1 initial)

/-- Every action the program can come to perform satisfies `P`, provided that the
results of the earlier ones are as `Q` says. -/
def Under (Q : ∀ {β : Type}, A β → β → Prop) (P : ∀ {β : Type}, A β → Prop) : Prog A α → Prop
  | .done _ => True
  | .act action next => P action ∧ ∀ result, Q action result → (next result).Under Q P

section Assumed
variable {Q : ∀ {β : Type}, A β → β → Prop}

@[simp] theorem under_done (value : α) : (Prog.done value : Prog A α).Under Q P := trivial

@[simp] theorem under_act {γ : Type} (action : A γ) (next : γ → Prog A α) :
    (Prog.act action next).Under Q P ↔ P action ∧ ∀ result, Q action result → (next result).Under Q P :=
  Iff.rfl

@[simp] theorem under_ite {c : Prop} [Decidable c] {first second : Prog A α} :
    (if c then first else second).Under Q P ↔
      (c → first.Under Q P) ∧ (¬ c → second.Under Q P) := by
  split <;> simp [*]

theorem Only.under {program : Prog A α} (only : program.Only P) : program.Under Q P := by
  induction program with
  | done value => trivial
  | act action next ih => exact ⟨only.1, fun result _ => ih result (only.2 result)⟩

theorem Under.bind {program : Prog A α} {following : α → Prog A β} (first : program.Under Q P)
    (second : ∀ value, (following value).Under Q P) : (program >>= following).Under Q P := by
  induction program with
  | done value => exact second value
  | act action next ih =>
    rw [act_bind]
    exact ⟨first.1, fun result admitted => ih result (first.2 result admitted)⟩

end Assumed

/-- Every action the program can come to perform is as `P` says together with what follows it. -/
def Each (P : ∀ {β : Type}, A β → (β → Prog A α) → Prop) : Prog A α → Prop
  | .done _ => True
  | .act action next => P action next ∧ ∀ result, (next result).Each P

theorem Only.each {Q : ∀ {β : Type}, A β → (β → Prog A α) → Prop} {program : Prog A α}
    (only : program.Only P)
    (implies : ∀ {β : Type} (action : A β) (next : β → Prog A α), P action →
      (∀ result, (next result).Only P) → Q action next) : program.Each Q := by
  induction program with
  | done value => trivial
  | act action next ih =>
    exact ⟨implies action next only.1 only.2, fun result => ih result (only.2 result)⟩

/-- What a program can have left once it has performed some of its actions. -/
inductive Continues (program : Prog A α) : Prog A α → Prop where
  | refl : Continues program program
  | next {γ : Type} {action : A γ} {next : γ → Prog A α} (result : γ) :
      Continues program (.act action next) → Continues program (next result)

/-- However it goes, the program performs no more actions than this. -/
def Within : Nat → Prog A α → Prop
  | _, .done _ => True
  | 0, .act _ _ => False
  | bound + 1, .act _ next => ∀ result, (next result).Within bound

/-- At most one of the actions performed is as `single` says, and all others are as `P` says. -/
def AtMostOnce (single P : ∀ {β : Type}, A β → Prop) : Prog A α → Prop
  | .done _ => True
  | .act action next =>
    (single action ∧ ∀ result, (next result).Only P) ∨
    (P action ∧ ∀ result, (next result).AtMostOnce single P)

end Footprint
end Prog
