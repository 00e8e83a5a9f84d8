import SocketMessaging.Library.Program

/-! What a program tells on its way. Some actions say something and all others are
silent; which they are is a parameter. The rules are those of a weakest precondition
whose postcondition is about the result and about the list of what has been said. -/
namespace Prog
variable {A : Type → Type} {α β M : Type} (tells : ∀ {β : Type}, A β → Option M)

/-- Whatever results the actions return, the result and what is said satisfy `Q`. -/
def Emits : Prog A α → (α → List M → Prop) → Prop
  | .done value, Q => Q value []
  | .act action next, Q => ∀ result, (next result).Emits fun value said =>
      Q value ((tells action).toList ++ said)

section Rules
variable {tells} {Q R : α → List M → Prop}

@[simp] theorem emits_done (value : α) : (Prog.done value : Prog A α).Emits tells Q ↔ Q value [] :=
  Iff.rfl

theorem emits_act {γ : Type} (action : A γ) (next : γ → Prog A α) :
    (Prog.act action next).Emits tells Q ↔ ∀ result, (next result).Emits tells fun value said =>
      Q value ((tells action).toList ++ said) := Iff.rfl

/-- A silent action leaves the postcondition alone. -/
theorem emits_silent {γ : Type} {action : A γ} (silent : tells action = none)
    {next : γ → Prog A α} :
    (Prog.act action next).Emits tells Q ↔ ∀ result, (next result).Emits tells Q := by
  rw [emits_act, silent]
  rfl

@[simp] theorem emits_ite {c : Prop} [Decidable c] {first second : Prog A α} :
    (if c then first else second).Emits tells Q ↔
      (c → first.Emits tells Q) ∧ (¬ c → second.Emits tells Q) := by
  split <;> simp [*]

theorem Emits.weaken {program : Prog A α} (emits : program.Emits tells Q)
    (weaker : ∀ value said, Q value said → R value said) : program.Emits tells R := by
  induction program generalizing Q R with
  | done value => exact weaker value [] emits
  | act action next ih =>
    intro result
    exact ih result (emits result) fun value said => weaker value _

theorem Emits.bind {Q : β → List M → Prop} {program : Prog A α} {following : α → Prog A β}
    (emits : program.Emits tells fun value said =>
      (following value).Emits tells fun last rest => Q last (said ++ rest)) :
    (program >>= following).Emits tells Q := by
  induction program generalizing Q with
  | done value => exact emits
  | act action next ih =>
    rw [act_bind]
    intro result
    refine ih result ((emits result).weaken fun value said follows => ?_)
    simpa only [List.append_assoc] using follows

/-- A `return` at the end changes nothing. -/
theorem Emits.andReturn {Q : Unit → List M → Prop} {program : Prog A Unit}
    (emits : program.Emits tells Q) : (program >>= fun _ => .done ()).Emits tells Q := by
  have same : (program >>= fun _ => .done ()) = program := bind_done program
  rw [same]
  exact emits

/-- A postcondition that holds on every path holds on the one that is taken. -/
theorem Emits.exists {σ : Type} {program : Prog A α} (emits : program.Emits tells Q)
    (exec : ∀ {β : Type}, A β → σ → β × σ) (s : σ) : ∃ value said, Q value said := by
  induction program generalizing Q s with
  | done value => exact ⟨value, [], emits⟩
  | act action next ih =>
    obtain ⟨value, said, holds⟩ := ih (exec action s).1 (emits _) (exec action s).2
    exact ⟨value, _, holds⟩

end Rules
end Prog
