import Mathlib.Data.List.Perm.Basic

/-! Handles that a system gives out and takes back, and those who hold them. A handle
may be given out again once it is taken back, so giving one back twice can hit its next
holder. The holders are in balance with the system if each handle in use is held once. -/
universe u

structure Handles (H : Type u) where
  inUse : List H
  /-- How often a handle was given back, or used, that was not in use. -/
  faults : Nat

namespace Handles
variable {H : Type u} [DecidableEq H] {t : Handles H} {held others : List H} {handle : H}

def acquire (handle : H) (t : Handles H) : Handles H := { t with inUse := handle :: t.inUse }

def release (handle : H) (t : Handles H) : Handles H :=
  if handle ∈ t.inUse then { t with inUse := t.inUse.erase handle }
  else { t with faults := t.faults + 1 }

/-- An operation on a handle that stays in use. -/
def use (handle : H) (t : Handles H) : Handles H :=
  if handle ∈ t.inUse then t else { t with faults := t.faults + 1 }

/-- Every handle in use is held by exactly one of the holders, and none other is held. -/
structure Balanced (t : Handles H) (held : List H) : Prop where
  same : t.inUse.Perm held
  once : t.inUse.Nodup
  faultless : t.faults = 0

omit [DecidableEq H] in
theorem Balanced.perm (balanced : t.Balanced held) (same : held.Perm others) : t.Balanced others :=
  ⟨balanced.same.trans same, balanced.once, balanced.faultless⟩

omit [DecidableEq H] in
theorem Balanced.acquire (balanced : t.Balanced held) (fresh : handle ∉ t.inUse) :
    (t.acquire handle).Balanced (handle :: held) where
  same := balanced.same.cons handle
  once := List.nodup_cons.mpr ⟨fresh, balanced.once⟩
  faultless := balanced.faultless

/-- Who holds a handle may give it back. -/
theorem Balanced.release (balanced : t.Balanced (handle :: held)) :
    (t.release handle).Balanced held := by
  have inside : handle ∈ t.inUse := balanced.same.mem_iff.mpr List.mem_cons_self
  rw [Handles.release, if_pos inside]
  refine ⟨?_, balanced.once.erase handle, balanced.faultless⟩
  have erased := balanced.same.erase handle
  rwa [List.erase_cons_head] at erased

/-- Who holds a handle may use it. -/
theorem Balanced.use (balanced : t.Balanced held) (own : handle ∈ held) : t.use handle = t :=
  if_pos (balanced.same.mem_iff.mpr own)

end Handles
