import Mathlib.Data.List.Perm.Basic
import SocketMessaging.Library.Sessions

/-! Claims on the handles of a session table. A party that has decided to release
a handle has a claim on it: first together with the name that it is going to
unregister, then alone. While nobody claims a handle that is claimed already,
each claim is settled on the session for which it was made. -/
namespace Sessions
universe u v w

inductive Claim (N : Type u) (H : Type v) where
  | leaving (name : N) (handle : H)
  | holding (handle : H)
  deriving DecidableEq

namespace Claim
variable {N : Type u} {H : Type v}

def handle : Claim N H → H
  | .leaving _ handle => handle
  | .holding handle => handle

def name : Claim N H → Option N
  | .leaving name _ => some name
  | .holding _ => none

end Claim

/-- The table is in order and so are the claims on it, each with the owner for
whom it was made: a claimed handle is in use by that owner, it stands under no name
but the one that is being left, and that name stands for no other handle. -/
structure Orderly {N : Type u} {H : Type v} {O : Type w} (opened : O → Prop) (t : Table N H O)
    (claims : List (Claim N H × Option O)) : Prop where
  exclusive : t.Exclusive
  accounted : t.Accounted opened
  used : ∀ {claim owner}, (claim, owner) ∈ claims →
    ∃ o, owner = some o ∧ t.user claim.handle = some o
  named : ∀ {claim owner name}, (claim, owner) ∈ claims → t.handleOf name = some claim.handle →
    claim.name = some name
  left : ∀ {claim owner name handle}, (claim, owner) ∈ claims → claim.name = some name →
    t.handleOf name = some handle → handle = claim.handle
  apart : (claims.map fun claim => claim.1.handle).Nodup

namespace Orderly
open Table
variable {N : Type u} {H : Type v} {O : Type w} [DecidableEq N] [DecidableEq H] [DecidableEq O]
  {opened : O → Prop} {t after : Table N H O} {claims others : List (Claim N H × Option O)}
  {name : N} {handle : H} {owner : Option O} {o : O}

omit [DecidableEq N] [DecidableEq H] [DecidableEq O] in
theorem perm (orderly : Orderly opened t claims) (same : claims.Perm others) :
    Orderly opened t others where
  exclusive := orderly.exclusive
  accounted := orderly.accounted
  used := fun member => orderly.used (same.mem_iff.mpr member)
  named := fun member => orderly.named (same.mem_iff.mpr member)
  left := fun member => orderly.left (same.mem_iff.mpr member)
  apart := (same.map _).nodup_iff.mp orderly.apart

omit [DecidableEq N] [DecidableEq H] [DecidableEq O] in
/-- A claim that differs from all others. -/
theorem cons (orderly : Orderly opened t claims) {claim : Claim N H}
    (used : t.user claim.handle = some o)
    (named : ∀ name, t.handleOf name = some claim.handle → claim.name = some name)
    (left : ∀ {name handle}, claim.name = some name → t.handleOf name = some handle →
      handle = claim.handle)
    (fresh : ∀ other ∈ claims, other.1.handle ≠ claim.handle) :
    Orderly opened t ((claim, some o) :: claims) where
  exclusive := orderly.exclusive
  accounted := orderly.accounted
  used := by
    intro other owner member
    rcases List.mem_cons.mp member with same | old
    · cases same
      exact ⟨o, rfl, used⟩
    · exact orderly.used old
  named := by
    intro other owner name member stands
    rcases List.mem_cons.mp member with same | old
    · cases same
      exact named name stands
    · exact orderly.named old stands
  left := by
    intro other owner name handle member leaves stands
    rcases List.mem_cons.mp member with same | old
    · cases same
      exact left leaves stands
    · exact orderly.left old leaves stands
  apart := by
    refine List.nodup_cons.mpr ⟨fun claimed => ?_, orderly.apart⟩
    obtain ⟨other, listed, same⟩ := List.mem_map.mp claimed
    exact fresh other listed same

omit [DecidableEq N] [DecidableEq H] [DecidableEq O] in
/-- Somebody looks up a name and the handle for which it stands, to release both. -/
theorem leave (orderly : Orderly opened t claims) (stands : t.handleOf name = some handle)
    (used : t.user handle = some o) (fresh : ∀ other ∈ claims, other.1.handle ≠ handle) :
    Orderly opened t ((.leaving name handle, some o) :: claims) := by
  refine orderly.cons used (fun other named => ?_) (fun leaves other => ?_) fresh
  · exact congrArg some (orderly.exclusive.single stands named)
  · obtain rfl := Option.some.inj leaves
    exact Option.some.inj (other.symm.trans stands)

omit [DecidableEq N] [DecidableEq H] [DecidableEq O] in
/-- Somebody is going to release a handle that has no name. -/
theorem refuse (orderly : Orderly opened t claims) (used : t.user handle = some o)
    (unnamed : ∀ name, t.handleOf name ≠ some handle)
    (fresh : ∀ other ∈ claims, other.1.handle ≠ handle) :
    Orderly opened t ((.holding handle, some o) :: claims) := by
  refine orderly.cons used (fun name named => ?_) (fun leaves => ?_) fresh
  · exact absurd named (unnamed name)
  · cases leaves

omit [DecidableEq H] [DecidableEq O] in
theorem unregister (orderly : Orderly opened t ((.leaving name handle, owner) :: claims)) :
    Orderly opened (t.unregister name) ((.holding handle, owner) :: claims) where
  exclusive := orderly.exclusive.unregister name
  accounted := ⟨orderly.accounted.known, orderly.accounted.one, orderly.accounted.using_none,
    orderly.accounted.fresh, orderly.accounted.gone⟩
  used := by
    intro claim owner member
    rcases List.mem_cons.mp member with same | old
    · cases same
      have first : ∃ o, owner = some o ∧ t.user handle = some o := orderly.used List.mem_cons_self
      exact first
    · exact orderly.used (List.mem_cons_of_mem _ old)
  named := by
    intro claim owner other member stands
    obtain ⟨apart, stood⟩ := handleOf_unregister stands
    rcases List.mem_cons.mp member with same | old
    · cases same
      have known : some name = some other := orderly.named List.mem_cons_self stood
      exact absurd (Option.some.inj known).symm apart
    · exact orderly.named (List.mem_cons_of_mem _ old) stood
  left := by
    intro claim owner other next member leaves stands
    rcases List.mem_cons.mp member with same | old
    · cases same
      cases leaves
    · exact orderly.left (List.mem_cons_of_mem _ old) leaves (handleOf_unregister stands).2
  apart := orderly.apart

omit [DecidableEq N] in
theorem release (orderly : Orderly opened t ((.holding handle, owner) :: claims)) :
    Orderly opened (t.release handle) claims := by
  obtain ⟨o, _, used⟩ := orderly.used List.mem_cons_self
  have unnamed : ∀ name, t.handleOf name ≠ some handle := fun name named =>
    absurd (orderly.named List.mem_cons_self named) (Option.some_ne_none _).symm
  obtain ⟨fresh, rest⟩ := List.nodup_cons.mp orderly.apart
  refine ⟨orderly.exclusive.release unnamed, orderly.accounted.release orderly.exclusive used, ?_,
    fun member => orderly.named (List.mem_cons_of_mem _ member),
    fun member => orderly.left (List.mem_cons_of_mem _ member), rest⟩
  intro claim owner member
  obtain ⟨holder, same, uses⟩ := orderly.used (List.mem_cons_of_mem _ member)
  have apart : claim.handle ≠ handle := fun equal =>
    fresh (List.mem_map.mpr ⟨(claim, owner), member, equal⟩)
  exact ⟨holder, same, (Function.update_of_ne apart _ _).trans uses⟩

/-- A name is registered that nobody is leaving, for a handle that nobody claims. -/
theorem register (orderly : Orderly opened t claims) (used : t.user handle = some o)
    (unnamed : ∀ other, t.handleOf other ≠ some handle)
    (unclaimed : ∀ claim ∈ claims, claim.1.handle ≠ handle)
    (staying : ∀ claim ∈ claims, claim.1.name ≠ some name) :
    Orderly opened (t.register name handle) claims where
  exclusive := orderly.exclusive.register used unnamed name
  accounted := (Safe.register name used unnamed).accounted orderly.exclusive orderly.accounted
  used := orderly.used
  named := by
    intro claim owner other member stands
    simp only [Table.register, Function.update_apply] at stands
    split_ifs at stands with same
    · exact absurd (Option.some.inj stands).symm (unclaimed _ member)
    · exact orderly.named member stands
  left := by
    intro claim owner other next member leaves stands
    have apart : other ≠ name := fun same => staying _ member (same ▸ leaves)
    simp only [Table.register, Function.update_of_ne apart] at stands
    exact orderly.left member leaves stands
  apart := orderly.apart

omit [DecidableEq N] [DecidableEq O] in
theorem acquire (orderly : Orderly opened t claims) (free : t.user handle = none) (new : ¬ opened o) :
    Orderly (fun owner => opened owner ∨ owner = o) (t.acquire handle o) claims where
  exclusive := orderly.exclusive.acquire free o
  accounted := orderly.accounted.acquire orderly.exclusive free new
  used := by
    intro claim owner member
    obtain ⟨holder, same, uses⟩ := orderly.used member
    have apart : claim.handle ≠ handle := fun equal => by simp [equal, free] at uses
    exact ⟨holder, same, (Function.update_of_ne apart _ _).trans uses⟩
  named := orderly.named
  left := orderly.left
  apart := orderly.apart

/-- All parties give up, after which the table changes safely. -/
theorem abandon (orderly : Orderly opened t claims) (changes : Relation.ReflTransGen Safe t after) :
    Orderly opened after [] where
  exclusive := exclusive_of_safe changes orderly.exclusive
  accounted := accounted_of_safe changes orderly.exclusive orderly.accounted
  used := fun member => absurd member List.not_mem_nil
  named := fun member => absurd member List.not_mem_nil
  left := fun member => absurd member List.not_mem_nil
  apart := List.nodup_nil

omit [DecidableEq N] [DecidableEq H] [DecidableEq O] in
/-- A handle is released for the owner for whom it was claimed, when it has lost its name. -/
theorem releases (orderly : Orderly opened t claims) (member : (.holding handle, owner) ∈ claims) :
    (∃ o, owner = some o ∧ t.user handle = some o) ∧ ∀ name, t.handleOf name ≠ some handle := by
  refine ⟨orderly.used member, fun name named => ?_⟩
  cases orderly.named member named

omit [DecidableEq N] [DecidableEq H] [DecidableEq O] in
/-- If a name that is being left stands for anything, then for the claimed handle,
and it is registered for the owner for whom that was claimed. -/
theorem unregisters {next : H} (orderly : Orderly opened t claims)
    (member : (.leaving name handle, owner) ∈ claims) (stands : t.handleOf name = some next) :
    next = handle ∧ t.registrant name = owner ∧ t.user handle = owner := by
  obtain rfl := orderly.left member rfl stands
  obtain ⟨o, rfl, used⟩ := orderly.used member
  obtain ⟨other, uses, registered⟩ := orderly.exclusive.live stands
  exact ⟨rfl, registered.trans (uses.symm.trans used), used⟩

end Orderly
end Sessions
