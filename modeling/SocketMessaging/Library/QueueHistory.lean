import Mathlib.Data.List.Nodup

/-! What has become of the items that a queue ever accepted. Items enter at the
back, in the order of acceptance, and leave at the front, either taken by the
consumer or evicted to make room. -/
universe u

structure QueueHistory (α : Type u) where
  accepted : List α
  evicted : List α
  taken : List α
  queued : List α

namespace QueueHistory
variable {α : Type u} {item : α} {rest : List α} {h : QueueHistory α}

def empty : QueueHistory α := ⟨[], [], [], []⟩

def accept (item : α) (h : QueueHistory α) : QueueHistory α :=
  { h with accepted := h.accepted ++ [item], queued := h.queued ++ [item] }

def evict (h : QueueHistory α) : QueueHistory α :=
  { h with evicted := h.evicted ++ h.queued.head?.toList, queued := h.queued.tail }

def take (h : QueueHistory α) : QueueHistory α :=
  { h with taken := h.taken ++ h.queued.head?.toList, queued := h.queued.tail }

variable [DecidableEq α]

/-- Every accepted item is in one place, and the order of acceptance is kept. -/
structure Conserved (h : QueueHistory α) : Prop where
  distinct : h.accepted.Nodup
  evicted : ∀ item ∈ h.evicted, item ∈ h.accepted
  order : h.taken ++ h.queued = h.accepted.filter fun item => item ∉ h.evicted

theorem empty_conserved : (empty : QueueHistory α).Conserved where
  distinct := .nil
  evicted := fun _ member => absurd member List.not_mem_nil
  order := rfl

namespace Conserved

/-- What was taken or is queued has been accepted, in this order. -/
theorem sublist (conserved : h.Conserved) : (h.taken ++ h.queued).Sublist h.accepted :=
  conserved.order ▸ List.filter_sublist

theorem accept (conserved : h.Conserved) (fresh : item ∉ h.accepted) :
    (h.accept item).Conserved where
  distinct := by
    have distinct := conserved.distinct.concat fresh
    rwa [List.concat_eq_append] at distinct
  evicted := fun other member => List.mem_append_left _ (conserved.evicted other member)
  order := by
    have kept : item ∉ h.evicted := fun gone => fresh (conserved.evicted item gone)
    have last : [item].filter (fun item => item ∉ h.evicted) = [item] :=
      List.filter_cons_of_pos (by simpa using kept)
    change h.taken ++ (h.queued ++ [item]) =
      (h.accepted ++ [item]).filter fun item => item ∉ h.evicted
    rw [List.filter_append, ← conserved.order, last, List.append_assoc]

theorem take (conserved : h.Conserved) : h.take.Conserved where
  distinct := conserved.distinct
  evicted := conserved.evicted
  order := by
    change h.taken ++ h.queued.head?.toList ++ h.queued.tail =
      h.accepted.filter fun item => item ∉ h.evicted
    rw [← conserved.order, List.append_assoc]
    cases h.queued <;> rfl

/-- Evicting the oldest queued item removes it from what is accounted for, and nothing else. -/
theorem evict (conserved : h.Conserved) : h.evict.Conserved := by
  cases front : h.queued with
  | nil =>
    have same : h.evict = h := by
      cases h
      simp_all [QueueHistory.evict]
    rw [same]
    exact conserved
  | cons first rest =>
    have order := front ▸ conserved.order
    have distinct : (h.taken ++ first :: rest).Nodup := order ▸ conserved.distinct.filter _
    have elsewhere : first ∉ h.taken ++ rest := (List.nodup_middle.mp distinct).notMem
    have all := conserved.sublist.subset
    rw [front] at all
    constructor
    · exact conserved.distinct
    · intro item member
      simp only [QueueHistory.evict, front, List.head?_cons, Option.toList_some, List.mem_append,
        List.mem_singleton] at member
      rcases member with old | rfl
      · exact conserved.evicted item old
      · exact all (List.mem_append_right _ List.mem_cons_self)
    · have split : (h.accepted.filter fun item => item ∉ h.evicted ++ [first]) =
          (h.accepted.filter fun item => item ∉ h.evicted).filter fun item => item ≠ first := by
        rw [List.filter_filter]
        apply List.filter_congr
        intro item _
        simp [and_comm]
      simp only [QueueHistory.evict, front, List.head?_cons, Option.toList_some, List.tail_cons]
      rw [split, ← order]
      have others : (h.taken ++ rest).filter (fun item => item ≠ first) = h.taken ++ rest := by
        apply List.filter_eq_self.mpr
        intro item member
        have other : item ≠ first := fun same => elsewhere (same ▸ member)
        simpa using other
      rw [← others, List.filter_append, List.filter_append, List.filter_cons_of_neg (by simp)]

/-- As long as nothing is evicted, what was accepted is all there. -/
theorem complete (conserved : h.Conserved) (kept : h.evicted = []) :
    h.taken ++ h.queued = h.accepted := by
  rw [conserved.order, kept]
  simp

end Conserved
end QueueHistory
