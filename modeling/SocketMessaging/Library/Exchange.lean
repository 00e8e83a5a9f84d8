import Mathlib.Data.List.Basic
import Mathlib.Logic.Function.Basic
import SocketMessaging.Library.Runs

/-! A mail exchange. Parties log in under names, and letters are addressed to names.
Letters wait in one queue; the one at its front goes to whoever is logged in under
its address by then, or back if nobody is. Notices reach a party without the queue. -/
universe u v w x

/-- What became of a letter. It is lost if it was sent to a party and did not arrive. -/
inductive Fate (P : Type u) where
  | delivered (party : P)
  | lost (party : P)
  | returned
  deriving DecidableEq

def Fate.arrived {P : Type u} : Fate P → Bool
  | .delivered _ => true
  | _ => false

/-- The box of a party holds what it has received. The last three fields are a
record of the run, all with the oldest first. -/
structure Exchange (N : Type u) (P : Type v) (M : Type w) (A : Type x) where
  online : N → Option P
  queue : List M
  boxes : P → List (M ⊕ A)
  entered : List (N × P)
  posted : List M
  settled : List (M × Fate P)

namespace Exchange
open Transition
variable {N : Type u} {P : Type v} {M : Type w} {A : Type x}

inductive Op (N : Type u) (P : Type v) (M : Type w) (A : Type x) where
  | login (name : N) (party : P)
  | logout (name : N)
  | post (letter : M)
  | settle (arrives : Bool)
  | notify (party : P) (notice : A)

def empty : Exchange N P M A where
  online := fun _ => none
  queue := []
  boxes := fun _ => []
  entered := []
  posted := []
  settled := []

def fate (address : M → N) (e : Exchange N P M A) (arrives : Bool) (letter : M) : Fate P :=
  match e.online (address letter) with
  | some party => if arrives then .delivered party else .lost party
  | none => .returned

variable [DecidableEq P]

def put (party : P) (item : M ⊕ A) (e : Exchange N P M A) : Exchange N P M A :=
  { e with boxes := Function.update e.boxes party (e.boxes party ++ [item]) }

/-- The front of the queue meets its fate. -/
def settle (letter : M) (rest : List M) (fate : Fate P) (e : Exchange N P M A) : Exchange N P M A :=
  let settled := { e with queue := rest, settled := e.settled ++ [(letter, fate)] }
  match fate with
  | .delivered party => settled.put party (.inl letter)
  | _ => settled

/-- The letters that were delivered to a party, in the order in which they were settled. -/
def delivered (party : P) (e : Exchange N P M A) : List M :=
  (e.settled.filter fun entry => entry.2 = .delivered party).map Prod.fst

/-- Every letter posted has been settled or waits, in the order of posting; a box
holds the letters delivered to its party; and these were addressed to a name under
which the party had logged in. -/
structure Kept (address : M → N) (e : Exchange N P M A) : Prop where
  order : e.settled.map Prod.fst ++ e.queue = e.posted
  boxes : ∀ party, (e.boxes party).filterMap Sum.getLeft? = e.delivered party
  online : ∀ {name party}, e.online name = some party → (name, party) ∈ e.entered
  addressed : ∀ {letter party}, (letter, .delivered party) ∈ e.settled →
    (address letter, party) ∈ e.entered

variable {address : M → N} {e after : Exchange N P M A}

theorem empty_kept : (empty : Exchange N P M A).Kept address where
  order := rfl
  boxes := fun _ => rfl
  online := nofun
  addressed := fun member => absurd member List.not_mem_nil

theorem boxes_put (party other : P) (item : M ⊕ A) (e : Exchange N P M A) :
    (e.put party item).boxes other = e.boxes other ++ if other = party then [item] else [] := by
  by_cases same : other = party
  · subst same
    simp [put]
  · simp [put, same]

theorem boxes_settle (letter : M) (rest : List M) (fate : Fate P) (party : P)
    (e : Exchange N P M A) : (e.settle letter rest fate).boxes party =
      e.boxes party ++ if fate = .delivered party then [.inl letter] else [] := by
  cases fate with
  | delivered other =>
    refine (boxes_put other party (.inl letter) _).trans (congrArg _ ?_)
    simp only [Fate.delivered.injEq, eq_comm]
  | lost | returned => simp [settle]

theorem delivered_settle (letter : M) (rest : List M) (fate : Fate P) (party : P)
    (e : Exchange N P M A) : (e.settle letter rest fate).delivered party =
      e.delivered party ++ if fate = .delivered party then [letter] else [] := by
  have record : (e.settle letter rest fate).settled = e.settled ++ [(letter, fate)] := by
    cases fate <;> rfl
  rw [delivered, record, List.filter_append, List.map_append, delivered]
  by_cases same : fate = .delivered party <;> simp [same]

theorem Kept.settle (kept : e.Kept address) {letter : M} {rest : List M}
    (front : e.queue = letter :: rest) (arrives : Bool) :
    (e.settle letter rest (e.fate address arrives letter)).Kept address := by
  have addressed : ∀ {party}, e.fate address arrives letter = .delivered party →
      (address letter, party) ∈ e.entered := by
    intro party delivered
    unfold fate at delivered
    split at delivered
    · rename_i present
      split at delivered
      · obtain rfl := Fate.delivered.inj delivered
        exact kept.online present
      · cases delivered
    · cases delivered
  generalize e.fate address arrives letter = fate at addressed
  have same : (e.settle letter rest fate).entered = e.entered ∧
      (e.settle letter rest fate).online = e.online ∧
      (e.settle letter rest fate).posted = e.posted ∧
      (e.settle letter rest fate).queue = rest ∧
      (e.settle letter rest fate).settled = e.settled ++ [(letter, fate)] := by
    cases fate <;> exact ⟨rfl, rfl, rfl, rfl, rfl⟩
  obtain ⟨entered, online, posted, queue, settled⟩ := same
  constructor
  · rw [settled, queue, posted, ← kept.order, front, List.map_append, List.append_assoc]
    rfl
  · intro party
    rw [boxes_settle, delivered_settle, List.filterMap_append, kept.boxes]
    split <;> rfl
  · intro name party present
    rw [online] at present
    rw [entered]
    exact kept.online present
  · intro other party member
    rw [settled] at member
    rw [entered]
    rcases List.mem_append.mp member with old | new
    · exact kept.addressed old
    · obtain ⟨rfl, delivered⟩ := Prod.mk.inj (List.mem_singleton.mp new)
      exact addressed delivered.symm

/-- A party receives letters in the order in which they were posted, and none twice. -/
theorem Kept.delivered_sublist (kept : e.Kept address) (party : P) :
    (e.delivered party).Sublist e.posted := by
  rw [← kept.order]
  exact (List.filter_sublist.map _).trans (List.sublist_append_left _ _)

variable [DecidableEq N]

/-- `none` means that the operation is not enabled: a name is given to one party at
a time, and there has to be a letter to settle. -/
def step (address : M → N) (e : Exchange N P M A) : Op N P M A → Option (Exchange N P M A)
  | .login name party =>
    if (e.online name).isNone then
      some { e with
        online := Function.update e.online name (some party)
        entered := e.entered ++ [(name, party)] }
    else none
  | .logout name => some { e with online := Function.update e.online name none }
  | .post letter => some { e with queue := e.queue ++ [letter], posted := e.posted ++ [letter] }
  | .settle arrives =>
    match e.queue with
    | [] => none
    | letter :: rest => some (e.settle letter rest (e.fate address arrives letter))
  | .notify party notice => some (e.put party (.inr notice))

theorem step_kept {op : Op N P M A} (kept : e.Kept address) (stepped : step address e op = some after) :
    after.Kept address := by
  cases op with
  | login name party =>
    obtain ⟨_, same⟩ := Option.ite_none_right_eq_some.mp stepped
    cases same
    refine ⟨kept.order, kept.boxes, fun {other owner} present => ?_, fun member => ?_⟩
    · change Function.update e.online name (some party) other = some owner at present
      by_cases same : other = name
      · subst same
        rw [Function.update_self] at present
        exact List.mem_append_right _ (List.mem_singleton.mpr (by rw [Option.some.inj present]))
      · rw [Function.update_of_ne same] at present
        exact List.mem_append_left _ (kept.online present)
    · exact List.mem_append_left _ (kept.addressed member)
  | logout name =>
    cases stepped
    refine ⟨kept.order, kept.boxes, fun {other owner} present => ?_, kept.addressed⟩
    change Function.update e.online name none other = some owner at present
    by_cases same : other = name
    · simp [same] at present
    · rw [Function.update_of_ne same] at present
      exact kept.online present
  | post letter =>
    cases stepped
    refine ⟨?_, kept.boxes, kept.online, kept.addressed⟩
    rw [← kept.order, List.append_assoc]
  | settle arrives =>
    simp only [step] at stepped
    split at stepped
    · cases stepped
    · rename_i letter rest front
      cases stepped
      exact kept.settle front arrives
  | notify party notice =>
    cases stepped
    refine ⟨kept.order, fun other => ?_, kept.online, kept.addressed⟩
    rw [boxes_put, List.filterMap_append, kept.boxes]
    split <;> exact List.append_nil _

theorem run_kept {ok : Exchange N P M A → Op N P M A → Prop} {ops : List (Op N P M A)}
    (run : Run (step address) ok empty ops e) : e.Kept address :=
  run.invariant (fun kept _ stepped => step_kept kept stepped) empty_kept

end Exchange
