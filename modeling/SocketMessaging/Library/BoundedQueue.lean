import Mathlib.Init

/-! A bounded queue that refuses items once it is full. Items offered one after
the other are taken as long as there is room, and what follows is lost. -/
namespace BoundedQueue
universe u
variable {α : Type u} {capacity : Nat} {queue items : List α} {item : α}

/-- Whether the item was taken, and the queue afterwards. -/
def push (capacity : Nat) (queue : List α) (item : α) : Bool × List α :=
  if capacity ≤ queue.length then (false, queue) else (true, queue ++ [item])

/-- Offer the items in order and ignore the refusals. -/
def pushAll (capacity : Nat) (queue items : List α) : List α :=
  items.foldl (fun queue item => (push capacity queue item).2) queue

theorem push_full (full : capacity ≤ queue.length) : push capacity queue item = (false, queue) :=
  if_pos full

theorem push_room (room : queue.length < capacity) :
    push capacity queue item = (true, queue ++ [item]) :=
  if_neg (Nat.not_le.mpr room)

theorem pushAll_eq (capacity : Nat) (queue items : List α) :
    pushAll capacity queue items = queue ++ items.take (capacity - queue.length) := by
  induction items generalizing queue with
  | nil => simp [pushAll]
  | cons item items ih =>
    have unfolded : pushAll capacity queue (item :: items) =
        pushAll capacity (push capacity queue item).2 items := rfl
    by_cases full : capacity ≤ queue.length
    · rw [unfolded, push_full full, ih, Nat.sub_eq_zero_of_le full, List.take_zero, List.take_zero]
    · have room : capacity - queue.length = (capacity - (queue.length + 1)) + 1 := by omega
      rw [unfolded, push_room (Nat.not_le.mp full), ih, room, List.take_succ_cons,
        List.length_append, List.length_singleton, List.append_assoc, List.singleton_append]

theorem mem_pushAll {other : α} (member : other ∈ pushAll capacity queue items) :
    other ∈ queue ∨ other ∈ items := by
  rw [pushAll_eq] at member
  exact (List.mem_append.mp member).imp_right List.mem_of_mem_take

theorem length_pushAll_le (bounded : queue.length ≤ capacity) :
    (pushAll capacity queue items).length ≤ capacity := by
  rw [pushAll_eq, List.length_append, List.length_take]
  omega

end BoundedQueue
