import Mathlib.Algebra.GroupWithZero.Nat
import Mathlib.Tactic.SplitIfs

/-! Splitting a list at the occurrences of a separator, by repeated leftmost
search. The separator may have any length; for one of length one the result is
the standard `List.splitOn`. -/
namespace Delimited
universe u
variable {α : Type u} [DecidableEq α]

/-- Offset of the leftmost occurrence of `sep` in the list. -/
def find (sep : List α) : List α → Option Nat
  | [] => if sep = [] then some 0 else none
  | a :: rest => if sep.isPrefixOf (a :: rest) then some 0 else (find sep rest).map (· + 1)

omit [DecidableEq α] in
/-- The leftmost occurrence of `sep` in the list begins at this offset. -/
def FirstAt (sep text : List α) (offset : Nat) : Prop :=
  sep <+: text.drop offset ∧ ∀ earlier < offset, ¬ sep <+: text.drop earlier

/-- The search finds the leftmost occurrence. -/
theorem firstAt_of_find {sep text : List α} {offset : Nat} (found : find sep text = some offset) :
    FirstAt sep text offset := by
  induction text generalizing offset with
  | nil =>
    obtain ⟨rfl, rfl⟩ := (Option.ite_none_right_eq_some.mp found).imp_right Option.some.inj
    exact ⟨List.nil_prefix, fun earlier before => absurd before (Nat.not_lt_zero earlier)⟩
  | cons a rest ih =>
    unfold find at found
    split_ifs at found with here
    · obtain rfl := Option.some.inj found
      exact ⟨List.isPrefixOf_iff_prefix.mp here, fun earlier before => absurd before (Nat.not_lt_zero earlier)⟩
    · obtain ⟨inner, inside, rfl⟩ := Option.map_eq_some_iff.mp found
      obtain ⟨occurs, least⟩ := ih inside
      refine ⟨occurs, fun earlier before => ?_⟩
      cases earlier with
      | zero => exact fun start => here (List.isPrefixOf_iff_prefix.mpr start)
      | succ earlier => exact least earlier (Nat.lt_of_succ_lt_succ before)

/-- It fails only where there is no occurrence at all. -/
theorem not_infix_of_find {sep text : List α} (absent : find sep text = none) : ¬ sep <:+: text := by
  induction text with
  | nil =>
    intro occurs
    have empty := List.infix_nil.mp occurs
    simp [find, empty] at absent
  | cons a rest ih =>
    unfold find at absent
    split_ifs at absent with here
    intro occurs
    rcases List.infix_cons_iff.mp occurs with start | later
    · exact here (List.isPrefixOf_iff_prefix.mpr start)
    · exact ih (Option.map_eq_none_iff.mp absent) later

theorem find_singleton_none {sep : α} {text : List α} :
    find [sep] text = none ↔ sep ∉ text := by
  induction text with
  | nil => simp [find]
  | cons a rest ih =>
    by_cases same : sep = a
    · simp [find, same]
    · simp [find, same, ih]

theorem find_singleton_some {sep : α} {text : List α} {offset : Nat}
    (found : find [sep] text = some offset) :
    text = text.take offset ++ sep :: text.drop (offset + 1) ∧ sep ∉ text.take offset := by
  induction text generalizing offset with
  | nil => simp [find] at found
  | cons a rest ih =>
    by_cases same : sep = a
    · subst same
      simp only [find, List.isPrefixOf_cons_cons_self, List.isPrefixOf_nil_left, if_true,
        Option.some.injEq] at found
      subst found
      simp
    · simp only [find, List.isPrefixOf_cons_cons, beq_eq_false_iff_ne.mpr same, Bool.false_and,
        Bool.false_eq_true, if_false, Option.map_eq_some_iff] at found
      obtain ⟨inner, found, rfl⟩ := found
      obtain ⟨parts, absent⟩ := ih found
      constructor
      · simpa using parts
      · simpa [same] using absent

/-- Cutting at the leftmost separator is the first step of `splitOn`. -/
theorem splitOn_of_find {sep : α} {text : List α} {offset : Nat}
    (found : find [sep] text = some offset) :
    text.splitOn sep = text.take offset :: (text.drop (offset + 1)).splitOn sep := by
  obtain ⟨parts, absent⟩ := find_singleton_some found
  have cut := List.splitOn_append_cons_self_of_not_mem absent (text.drop (offset + 1))
  rwa [← parts] at cut

theorem splitOn_of_find_none {sep : α} {text : List α} (absent : find [sep] text = none) :
    text.splitOn sep = [text] :=
  List.splitOn_eq_singleton (find_singleton_none.mp absent)

omit [DecidableEq α] in
/-- Joining with a separator concatenates the pieces, each but the first
preceded by the separator. -/
theorem intercalate_cons (sep first : List α) (pieces : List (List α)) :
    sep.intercalate (first :: pieces) = first ++ pieces.flatMap (sep ++ ·) := by
  induction pieces generalizing first with
  | nil => simp
  | cons second rest ih =>
    rw [List.intercalate_cons_cons, ih, List.flatMap_cons, List.append_assoc, List.append_assoc]

theorem free_of_splitOn {sep : α} (text : List α) : ∀ piece ∈ text.splitOn sep, sep ∉ piece := by
  induction text with
  | nil => simp
  | cons a rest ih =>
    intro piece member
    rw [List.splitOn_cons_eq_if_modifyHead] at member
    split at member
    · rcases List.mem_cons.mp member with rfl | tail
      · exact List.not_mem_nil
      · exact ih piece tail
    · rename_i other
      cases shape : rest.splitOn sep with
      | nil => exact absurd shape (List.splitOn_ne_nil _ _)
      | cons head tail =>
        rw [shape, List.modifyHead_cons] at member
        rcases List.mem_cons.mp member with rfl | inTail
        · have headFree := ih head (by simp [shape])
          simp only [List.mem_cons, not_or]
          exact ⟨fun same => other (by simp [same]), headFree⟩
        · exact ih piece (by simp [shape, inTail])

/-- A piece written as a line of its own is read back, whatever the other lines are. -/
theorem mem_splitOn_lines {sep : α} {pieces : List (List α)} {piece : List α}
    (member : piece ∈ pieces) (free : sep ∉ piece) :
    piece ∈ (pieces.flatMap fun line => line ++ [sep]).splitOn sep := by
  obtain ⟨before, after, rfl⟩ := List.append_of_mem member
  have cut : ((before ++ piece :: after).flatMap fun line => line ++ [sep]) =
      before.flatMap (fun line => line ++ [sep]) ++
        (piece ++ sep :: after.flatMap fun line => line ++ [sep]) := by
    simp only [List.flatMap_append, List.flatMap_cons, List.append_assoc, List.singleton_append]
  have own : piece ∈ (piece ++ sep :: after.flatMap fun line => line ++ [sep]).splitOn sep := by
    rw [List.splitOn_append_cons_self_of_not_mem free]
    exact List.mem_cons_self
  rw [cut]
  rcases List.eq_nil_or_concat before with rfl | ⟨first, last, rfl⟩
  · exact own
  · have regroup : ∀ head rest : List α,
        (head ++ (last ++ [sep])) ++ rest = (head ++ last) ++ sep :: rest := by simp
    rw [List.concat_eq_append, List.flatMap_append, List.flatMap_singleton, regroup,
      List.splitOn_append_cons_self]
    exact List.mem_append_right _ own

/-- Lines that contain no separator are read back as they were written. -/
theorem splitOn_lines {sep : α} {lines : List (List α)} (free : ∀ line ∈ lines, sep ∉ line) :
    (lines.flatMap fun line => line ++ [sep]).splitOn sep = lines ++ [[]] := by
  induction lines with
  | nil => rfl
  | cons line lines ih =>
    obtain ⟨first, rest⟩ := List.forall_mem_cons.mp free
    rw [List.flatMap_cons, List.append_assoc, List.singleton_append,
      List.splitOn_append_cons_self_of_not_mem first, ih rest, List.cons_append]

theorem length_le_of_mem_splitOn {sep : α} (text : List α) :
    ∀ piece ∈ text.splitOn sep, piece.length ≤ text.length := by
  induction text with
  | nil => simp
  | cons a rest ih =>
    intro piece member
    rw [List.splitOn_cons_eq_if_modifyHead] at member
    split at member
    · rcases List.mem_cons.mp member with rfl | tail
      · exact Nat.zero_le _
      · exact Nat.le_succ_of_le (ih piece tail)
    · cases shape : rest.splitOn sep with
      | nil => exact absurd shape (List.splitOn_ne_nil _ _)
      | cons head tail =>
        rw [shape, List.modifyHead_cons] at member
        rcases List.mem_cons.mp member with rfl | inTail
        · exact Nat.succ_le_succ (ih head (by simp [shape]))
        · exact Nat.le_succ_of_le (ih piece (by simp [shape, inTail]))

section Leftmost
omit [DecidableEq α]

/-- The leftmost cutting of a list at the occurrences of `sep`. -/
inductive Tokens (sep : List α) : List α → List (List α) → Prop where
  | last {text : List α} : ¬ sep <:+: text → Tokens sep text [text]
  | cut {text : List α} {offset : Nat} {tokens : List (List α)} : FirstAt sep text offset →
      Tokens sep (text.drop (offset + sep.length)) tokens →
      Tokens sep text (text.take offset :: tokens)

/-- Where the token after these ones starts. -/
def startOf (sep : List α) (before : List (List α)) : Nat :=
  (before.map fun token => token.length + sep.length).sum

namespace FirstAt
variable {sep text : List α} {offset : Nat}

theorem le_length (first : FirstAt sep text offset) (nonempty : sep ≠ []) : offset + sep.length ≤ text.length := by
  have fits := first.1.length_le
  rw [List.length_drop] at fits
  have some_ := List.length_pos_iff.mpr nonempty
  omega

/-- The list is what comes before, the separator, and what comes after. -/
theorem split (first : FirstAt sep text offset) :
    text = text.take offset ++ (sep ++ text.drop (offset + sep.length)) := by
  have rest := List.prefix_iff_eq_append.mp first.1
  rw [List.drop_drop] at rest
  rw [rest, List.take_append_drop]

theorem not_infix (first : FirstAt sep text offset) (nonempty : sep ≠ []) :
    ¬ sep <:+: text.take offset := by
  rintro ⟨before, after, same⟩
  have inside := congrArg List.length same
  simp only [List.length_append, List.length_take] at inside
  have some_ := List.length_pos_iff.mpr nonempty
  refine first.2 before.length (by omega) ⟨after ++ text.drop offset, ?_⟩
  have whole : before ++ (sep ++ (after ++ text.drop offset)) = text := by
    rw [← List.append_assoc, ← List.append_assoc, same, List.take_append_drop]
  have dropped := congrArg (List.drop before.length) whole
  rwa [List.drop_left] at dropped

end FirstAt

namespace Tokens
variable {sep text : List α} {tokens : List (List α)}

theorem ne_nil (cut : Tokens sep text tokens) : tokens ≠ [] := by
  cases cut <;> exact List.cons_ne_nil _ _

theorem join (cut : Tokens sep text tokens) : sep.intercalate tokens = text := by
  induction cut with
  | last => exact List.intercalate_singleton
  | cut first rest ih =>
    rw [List.intercalate_cons_of_ne_nil rest.ne_nil, ih, List.append_assoc, ← first.split]

/-- There are no more separators than elements. -/
theorem length_le (cut : Tokens sep text tokens) (nonempty : sep ≠ []) :
    tokens.length ≤ text.length + 1 := by
  induction cut with
  | last => exact Nat.le_add_left 1 _
  | cut first _ ih =>
    have bound := first.le_length nonempty
    have some_ := List.length_pos_iff.mpr nonempty
    rw [List.length_drop] at ih
    rw [List.length_cons]
    omega

theorem not_infix (cut : Tokens sep text tokens) (nonempty : sep ≠ []) :
    ∀ token ∈ tokens, ¬ sep <:+: token := by
  induction cut with
  | last absent => exact fun token member => List.mem_singleton.mp member ▸ absent
  | cut first _ ih =>
    intro token member
    rcases List.mem_cons.mp member with rfl | later
    · exact first.not_infix nonempty
    · exact ih token later

/-- Each token but the last ends at the leftmost occurrence from its start on. -/
theorem firstAt (cut : Tokens sep text tokens) (nonempty : sep ≠ []) {before after : List (List α)}
    {token : List α} (split : tokens = before ++ token :: after) (more : after ≠ []) :
    FirstAt sep (text.drop (startOf sep before)) token.length := by
  induction cut generalizing before with
  | last =>
    obtain ⟨rfl, same⟩ := (List.append_eq_singleton_iff.mp split.symm).resolve_right
      fun last => List.cons_ne_nil _ _ last.2
    exact absurd (List.cons.inj same).2 more
  | @cut text offset tokens first _ ih =>
    have length : (text.take offset).length = offset :=
      List.length_take_of_le (by have := first.le_length nonempty; omega)
    cases before with
    | nil =>
      obtain ⟨rfl, -⟩ := List.cons.inj split
      rw [length]
      exact first
    | cons earlier before =>
      obtain ⟨rfl, rest⟩ := List.cons.inj split
      have later := ih rest
      rw [List.drop_drop] at later
      rwa [startOf, List.map_cons, List.sum_cons, length]

end Tokens

end Leftmost

end Delimited
