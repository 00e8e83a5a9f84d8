import Mathlib.Init

/-! Finite labeled runs of a partial step function. A run may carry a side
condition that each label has to meet in the state it is taken from, so one
induction serves both unconditional invariants and those that hold only while
the environment behaves. -/
namespace Transition
universe u v
variable {S : Type u} {L : Type v} {step : S → L → Option S} {ok good : S → L → Prop}
  {s t r : S} {label : L} {labels rest : List L}

inductive Run (step : S → L → Option S) (ok : S → L → Prop) : S → List L → S → Prop where
  | refl (s : S) : Run step ok s [] s
  | next {s t r : S} {label : L} {labels : List L} : ok s label → step s label = some t →
      Run step ok t labels r → Run step ok s (label :: labels) r

/-- The side condition that admits every step. -/
def Free (_ : S) (_ : L) : Prop := True

namespace Run

theorem single (admitted : ok s label) (stepped : step s label = some t) :
    Run step ok s [label] t :=
  .next admitted stepped (.refl t)

theorem trans (first : Run step ok s labels t) (second : Run step ok t rest r) :
    Run step ok s (labels ++ rest) r := by
  induction first with
  | refl => exact second
  | next admitted stepped _ ih => exact .next admitted stepped (ih second)

theorem snoc (first : Run step ok s labels t) (admitted : ok t label)
    (stepped : step t label = some r) : Run step ok s (labels ++ [label]) r :=
  first.trans (.single admitted stepped)

theorem weaken (weaker : ∀ s label, ok s label → good s label) (run : Run step ok s labels t) :
    Run step good s labels t := by
  induction run with
  | refl s => exact .refl s
  | next admitted stepped _ ih => exact .next (weaker _ _ admitted) stepped ih

/-- Every step of a run takes one of its labels. -/
theorem members (run : Run step ok s labels t) :
    Run step (fun s label => ok s label ∧ label ∈ labels) s labels t := by
  induction run with
  | refl s => exact .refl s
  | next admitted stepped _ ih =>
    refine .next ⟨admitted, List.mem_cons_self⟩ stepped (ih.weaken fun s label kept => ?_)
    exact ⟨kept.1, List.mem_cons_of_mem _ kept.2⟩

/-- What every admitted step preserves, every run preserves. -/
theorem invariant {P : S → Prop}
    (preserves : ∀ {s label t}, P s → ok s label → step s label = some t → P t)
    (run : Run step ok s labels t) (initial : P s) : P t := by
  induction run with
  | refl => exact initial
  | next admitted stepped _ ih => exact ih (preserves initial admitted stepped)

/-- What holds at the start and is preserved may be assumed at every step. -/
theorem along {P : S → Prop}
    (preserves : ∀ {s label t}, P s → ok s label → step s label = some t → P t)
    (run : Run step ok s labels t) (initial : P s) :
    Run step (fun s label => ok s label ∧ P s) s labels t := by
  induction run with
  | refl s => exact .refl s
  | next admitted stepped _ ih =>
    exact .next ⟨admitted, initial⟩ stepped (ih (preserves initial admitted stepped))

/-- A reflexive and transitive relation kept by each step relates both ends. -/
theorem related {R : S → S → Prop} (reflexive : ∀ s, R s s)
    (transitive : ∀ {s t r}, R s t → R t r → R s r)
    (preserves : ∀ {s label t}, ok s label → step s label = some t → R s t)
    (run : Run step ok s labels t) : R s t := by
  induction run with
  | refl s => exact reflexive s
  | next admitted stepped _ ih => exact transitive (preserves admitted stepped) ih

end Run

/-- Execute the labels in order; `none` as soon as one of them is not enabled. -/
def execute (step : S → L → Option S) : S → List L → Option S
  | s, [] => some s
  | s, label :: labels => (step s label).bind fun t => execute step t labels

theorem execute_run (labels : List L) {s : S} (executed : execute step s labels = some t) :
    Run step Free s labels t := by
  induction labels generalizing s with
  | nil => cases executed; exact .refl _
  | cons label labels ih =>
    obtain ⟨middle, stepped, remaining⟩ := Option.bind_eq_some_iff.mp executed
    exact .next trivial stepped (ih remaining)

/-- Evaluate a partial result together with a decidable property of it. -/
theorem evaluated {o : Option S} {P : S → Prop} [DecidablePred P]
    (checked : (o.any fun s => decide (P s)) = true) : ∃ s, o = some s ∧ P s := by
  obtain ⟨s, result, holds⟩ := (Option.any_eq_true _ _).mp checked
  exact ⟨s, result, of_decide_eq_true holds⟩

/-- Execute as long as a check passes that implies the side condition. -/
def guarded (check : S → L → Bool) (step : S → L → Option S) (s : S) (label : L) : Option S :=
  if check s label then step s label else none

theorem run_of_guarded {check : S → L → Bool} (sufficient : ∀ s label, check s label = true → ok s label)
    (labels : List L) {s : S} (executed : execute (guarded check step) s labels = some t) :
    Run step ok s labels t := by
  induction labels generalizing s with
  | nil => cases executed; exact .refl _
  | cons label labels ih =>
    obtain ⟨middle, stepped, remaining⟩ := Option.bind_eq_some_iff.mp executed
    obtain ⟨passed, stepped⟩ := Option.ite_none_right_eq_some.mp stepped
    exact .next (sufficient s label passed) stepped (ih remaining)

/-- States some run reaches from an initial state. -/
def Reachable (step : S → L → Option S) (initial : S) (s : S) : Prop :=
  ∃ labels, Run step Free initial labels s

theorem Reachable.invariant {P : S → Prop} {initial : S} (start : P initial)
    (preserves : ∀ {s label t}, P s → step s label = some t → P t)
    (reached : Reachable step initial s) : P s := by
  obtain ⟨labels, run⟩ := reached
  exact run.invariant (fun holds _ stepped => preserves holds stepped) start

end Transition
