import SocketMessaging.Library.Handles
import SocketMessaging.Library.Runs

/-! The class `Socket`, which owns a descriptor and closes it in its destructor. Programs
construct such objects, move them, close them, release their descriptors and destroy
them in any order, while the system may give a closed descriptor out again. -/
namespace SocketMessaging
open Transition

/-- `fd` is the member `fd_`; a negative number is no descriptor. -/
structure Socket where
  fd : Int := -1
  deriving DecidableEq

namespace Socket

def isValid (s : Socket) : Bool := 0 ≤ s.fd

/-- The object afterwards, and what `::close` does to the descriptors. -/
def close (s : Socket) (system : Handles Int) : Socket × Handles Int :=
  if 0 ≤ s.fd then ({}, system.release s.fd) else (s, system)

/-- The number handed out, and the object afterwards. -/
def release (s : Socket) : Int × Socket := (s.fd, {})

/-- The move constructor: the new object and the other one afterwards. -/
def moveFrom (other : Socket) : Socket × Socket := (⟨other.fd⟩, {})

/-- The move assignment from another object: both objects afterwards. -/
def assign (s other : Socket) (system : Handles Int) : Socket × Socket × Handles Int :=
  (⟨other.fd⟩, {}, (s.close system).2)

/-- The descriptor that the object is responsible for. -/
def owned (s : Socket) : List Int := if 0 ≤ s.fd then [s.fd] else []

variable {s : Socket} {system : Handles Int} {rest : List Int}

theorem close_balanced (balanced : system.Balanced (s.owned ++ rest)) :
    (s.close system).2.Balanced rest ∧ (s.close system).1.owned = [] := by
  by_cases valid : 0 ≤ s.fd
  · simp only [owned, valid, if_true, List.singleton_append] at balanced
    simp only [close, valid, if_true]
    exact ⟨balanced.release, rfl⟩
  · simp only [owned, valid, if_false, List.nil_append] at balanced
    simp only [close, valid, if_false, owned]
    exact ⟨balanced, trivial⟩

end Socket

/-- The objects in the order of their construction, `none` where one has been destroyed,
and the descriptors that have been released and not closed since. -/
structure Sockets where
  system : Handles Int := ⟨[], 0⟩
  objects : List (Option Socket) := []
  released : List Int := []

namespace Sockets

inductive Op where
  | construct
  /-- `Socket(fd)` on what a system call returned, or on a number that was released. -/
  | adopt (fd : Int)
  | moveConstruct (source : Nat)
  | moveAssign (target source : Nat)
  | close (object : Nat)
  | release (object : Nat)
  | destroy (object : Nat)
  /-- `::close` by whoever took the released descriptor. -/
  | closeReleased (fd : Int)

/-- `none` where an object does not exist, or the system would not give out a number
that is in use. -/
def step (p : Sockets) : Op → Option Sockets
  | .construct => some { p with objects := p.objects ++ [some {}] }
  | .adopt fd =>
    if fd < 0 then some { p with objects := p.objects ++ [some ⟨fd⟩] }
    else if fd ∈ p.released then
      some { p with objects := p.objects ++ [some ⟨fd⟩], released := p.released.erase fd }
    else if fd ∈ p.system.inUse then none
    else some { p with system := p.system.acquire fd, objects := p.objects ++ [some ⟨fd⟩] }
  | .moveConstruct source =>
    match p.objects[source]? with
    | some (some other) =>
      some { p with objects := p.objects.set source (some other.moveFrom.2) ++ [some other.moveFrom.1] }
    | _ => none
  | .moveAssign target source =>
    match p.objects[target]?, p.objects[source]? with
    | some (some s), some (some other) =>
      if target = source then some p
      else
        let (s, other, system) := s.assign other p.system
        some { p with system, objects := (p.objects.set target (some s)).set source (some other) }
    | _, _ => none
  | .close object =>
    match p.objects[object]? with
    | some (some s) =>
      let (s, system) := s.close p.system
      some { p with system, objects := p.objects.set object (some s) }
    | _ => none
  | .release object =>
    match p.objects[object]? with
    | some (some s) => some { p with
        objects := p.objects.set object (some s.release.2)
        released := if 0 ≤ s.release.1 then s.release.1 :: p.released else p.released }
    | _ => none
  | .destroy object =>
    match p.objects[object]? with
    | some (some s) =>
      some { p with system := (s.close p.system).2, objects := p.objects.set object none }
    | _ => none
  | .closeReleased fd =>
    if fd ∈ p.released then
      some { p with system := p.system.release fd, released := p.released.erase fd }
    else none

/-- What all objects together are responsible for. -/
def held (objects : List (Option Socket)) : List Int :=
  objects.flatMap fun object => (object.map Socket.owned).getD []

variable {p after : Sockets} {object : Nat} {old s : Socket} {op : Op}

/-- One object is replaced while the others keep what they have. -/
theorem held_set {objects : List (Option Socket)} {old : Option Socket}
    (present : objects[object]? = some old) : ∃ rest,
      (held objects).Perm ((old.map Socket.owned).getD [] ++ rest) ∧
      ∀ new, (held (objects.set object new)).Perm ((new.map Socket.owned).getD [] ++ rest) := by
  obtain ⟨inside, rfl⟩ := List.getElem?_eq_some_iff.mp present
  refine ⟨held (objects.eraseIdx object), ?_, fun new => ?_⟩
  · have taken := (List.getElem_cons_eraseIdx_perm inside).symm
    exact taken.flatMap_right _
  · exact (List.set_perm_cons_eraseIdx inside new).flatMap_right _

/-- Every descriptor in use is owned by one object or has been released. -/
def Balanced (p : Sockets) : Prop := p.system.Balanced (held p.objects ++ p.released)

/-- What an object owns can be separated from the rest. -/
theorem Balanced.split (balanced : p.Balanced) (present : p.objects[object]? = some (some s)) :
    ∃ rest, p.system.Balanced (s.owned ++ (rest ++ p.released)) ∧
      ∀ new, (held (p.objects.set object new)).Perm ((new.map Socket.owned).getD [] ++ rest) := by
  obtain ⟨rest, own, replaced⟩ := held_set present
  refine ⟨rest, balanced.perm ?_, replaced⟩
  rw [← List.append_assoc]
  exact own.append_right _

theorem held_append (objects : List (Option Socket)) (s : Socket) :
    (held (objects ++ [some s])).Perm (s.owned ++ held objects) := by
  rw [held, List.flatMap_append, List.flatMap_singleton]
  exact List.perm_append_comm

/-- Who takes a released descriptor is responsible for it. -/
theorem Balanced.taken {fd : Int} (balanced : p.Balanced) (member : fd ∈ p.released) :
    p.system.Balanced (fd :: (held p.objects ++ p.released.erase fd)) := by
  refine Handles.Balanced.perm balanced ?_
  exact ((List.perm_cons_erase member).append_left _).trans List.perm_middle

theorem Balanced.step (balanced : p.Balanced) (stepped : p.step op = some after) :
    after.Balanced := by
  cases op with
  | construct =>
    cases stepped
    exact Handles.Balanced.perm balanced ((held_append _ {}).symm.append_right _)
  | adopt fd =>
    simp only [Sockets.step] at stepped
    split_ifs at stepped with invalid released fresh
    · cases stepped
      have nothing : Socket.owned ⟨fd⟩ = [] := if_neg (Int.not_le.mpr invalid)
      have same := held_append p.objects ⟨fd⟩
      rw [nothing, List.nil_append] at same
      exact Handles.Balanced.perm balanced (same.symm.append_right _)
    all_goals
      cases stepped
      have one : Socket.owned ⟨fd⟩ = [fd] := if_pos (Int.not_lt.mp invalid)
      have same := held_append p.objects ⟨fd⟩
      rw [one] at same
    · exact (balanced.taken released).perm (same.symm.append_right _)
    · exact (Handles.Balanced.acquire balanced fresh).perm (same.symm.append_right _)
  | moveConstruct source =>
    simp only [Sockets.step] at stepped
    split at stepped
    · rename_i other present
      cases stepped
      obtain ⟨rest, own, replaced⟩ := balanced.split present
      refine own.perm ?_
      have moved := held_append (p.objects.set source (some other.moveFrom.2)) other.moveFrom.1
      have left := replaced (some other.moveFrom.2)
      rw [← List.append_assoc]
      exact ((left.append_left other.owned).symm.trans moved.symm).append_right _
    · cases stepped
  | moveAssign target source =>
    simp only [Sockets.step] at stepped
    split at stepped
    · rename_i s other there present
      by_cases same : target = source
      · rw [if_pos same] at stepped
        exact Option.some.inj stepped ▸ balanced
      rw [if_neg same] at stepped
      cases stepped
      obtain ⟨rest, own, replaced⟩ := balanced.split there
      have again : (p.objects.set target (some ⟨other.fd⟩))[source]? = some (some other) :=
        (List.getElem?_set_ne same).trans present
      -- the descriptor is for a moment with both objects, and then with the target only
      obtain ⟨last, both, emptied⟩ := held_set again
      have given : (other.owned ++ last).Perm (other.owned ++ rest) :=
        both.symm.trans (replaced (some ⟨other.fd⟩))
      have left : (held ((p.objects.set target (some ⟨other.fd⟩)).set source (some {}))).Perm rest :=
        (emptied (some {})).trans ((List.perm_append_left_iff other.owned).mp given)
      exact (Socket.close_balanced own).1.perm (left.symm.append_right _)
    · cases stepped
  | close object =>
    simp only [Sockets.step] at stepped
    split at stepped
    · rename_i s present
      cases stepped
      obtain ⟨rest, own, replaced⟩ := balanced.split present
      obtain ⟨closed, nothing⟩ := Socket.close_balanced own
      have left := replaced (some (s.close p.system).1)
      rw [Option.map_some, Option.getD_some, nothing, List.nil_append] at left
      exact closed.perm (left.symm.append_right _)
    · cases stepped
  | release object =>
    simp only [Sockets.step] at stepped
    split at stepped
    · rename_i s present
      cases stepped
      obtain ⟨rest, own, replaced⟩ := balanced.split present
      have given : (if 0 ≤ s.release.1 then s.release.1 :: p.released else p.released) =
          s.owned ++ p.released := by
        by_cases valid : 0 ≤ s.fd
        · simp [Socket.release, Socket.owned, valid]
        · simp [Socket.release, Socket.owned, valid]
      refine own.perm ?_
      rw [given, ← List.append_assoc, ← List.append_assoc]
      refine List.Perm.append_right _ ?_
      exact List.perm_append_comm.trans ((replaced (some s.release.2)).symm.append_right _)
    · cases stepped
  | destroy object =>
    simp only [Sockets.step] at stepped
    split at stepped
    · rename_i s present
      cases stepped
      obtain ⟨rest, own, replaced⟩ := balanced.split present
      exact (Socket.close_balanced own).1.perm ((replaced none).symm.append_right _)
    · cases stepped
  | closeReleased fd =>
    obtain ⟨member, same⟩ := Option.ite_none_right_eq_some.mp stepped
    cases same
    exact (balanced.taken member).release

/-- Whatever is done with the objects, no descriptor is closed that is not in use, and
those in use are the ones that a single object owns or that have been released. -/
theorem descriptors_owned {ops : List Op} (run : Run step Free {} ops p) :
    p.system.faults = 0 ∧ p.system.inUse.Nodup ∧
      p.system.inUse.Perm (held p.objects ++ p.released) := by
  have start : Balanced {} := ⟨.refl _, List.nodup_nil, rfl⟩
  have balanced := run.invariant (P := Balanced) (fun held _ stepped => held.step stepped) start
  exact ⟨balanced.faultless, balanced.once, balanced.same⟩

/-- The first descriptor is moved twice, over the other one at last, and the number that
this closes is given out again; then the first is released and wrapped anew. -/
theorem descriptors_owned_of_moves : ∃ p : Sockets,
    p.objects = [some {}, some {}, some {}, some ⟨4⟩, some ⟨3⟩] ∧ p.system.faults = 0 ∧
    p.system.inUse.Nodup ∧ p.system.inUse.Perm (held p.objects ++ p.released) := by
  obtain ⟨p, ran, objects⟩ := evaluated (o := execute step {} [.adopt 3, .adopt 4, .construct,
      .moveAssign 2 0, .moveAssign 1 2, .adopt 4, .release 1, .adopt 3])
    (P := fun p : Sockets => p.objects = [some {}, some {}, some {}, some ⟨4⟩, some ⟨3⟩]) (by decide)
  exact ⟨p, objects, descriptors_owned (execute_run _ ran)⟩

end Sockets
end SocketMessaging
