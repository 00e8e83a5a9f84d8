import Mathlib.Logic.Relation
import SocketMessaging.Utils.Utils

/-! What `split` returns for a delimiter of any length. The loop is followed round
by round; a token is cut off at the leftmost delimiter of what is left, so nothing
but delimiters is lost between the tokens. -/
namespace SocketMessaging.Utils
open Delimited Relation

/-- The variables of `split`: `last` is `end`, which is reserved here, and `none`
is `npos`. -/
structure Scan where
  tokens : List Str
  start : Nat
  last : Option Nat

namespace Scan
variable {s delimiter : Str} {scan after : Scan}

def begin (s delimiter : Str) : Scan := ⟨[], 0, findFrom s delimiter 0⟩

/-- One round of the loop; `none` where its condition fails. -/
def round (s delimiter : Str) (scan : Scan) : Option Scan :=
  scan.last.map fun last =>
    { tokens := scan.tokens ++ [(s.drop scan.start).take (last - scan.start)]
      start := last + delimiter.length
      last := findFrom s delimiter (last + delimiter.length) }

def Round (s delimiter : Str) (scan after : Scan) : Prop := scan.round s delimiter = some after

/-- `last` is where the next delimiter begins, and `substr` is never called with a
position past the end. -/
structure Sound (s delimiter : Str) (scan : Scan) : Prop where
  inside : scan.start ≤ s.length
  found : scan.last = findFrom s delimiter scan.start

theorem begin_sound (s delimiter : Str) : (begin s delimiter).Sound s delimiter :=
  ⟨Nat.zero_le _, rfl⟩

theorem firstAt_of_findFrom {start last : Nat} (found : findFrom s delimiter start = some last) :
    ∃ offset, last = start + offset ∧ FirstAt delimiter (s.drop start) offset := by
  obtain ⟨offset, first, rfl⟩ := Option.map_eq_some_iff.mp found
  exact ⟨offset, rfl, firstAt_of_find first⟩

theorem round_sound (nonempty : delimiter ≠ []) (sound : scan.Sound s delimiter)
    (stepped : Round s delimiter scan after) : after.Sound s delimiter := by
  obtain ⟨last, found, rfl⟩ := Option.map_eq_some_iff.mp stepped
  refine ⟨?_, rfl⟩
  obtain ⟨offset, rfl, first⟩ := firstAt_of_findFrom (sound.found.symm.trans found)
  have bound := first.le_length nonempty
  have inside := sound.inside
  rw [List.length_drop] at bound
  dsimp only
  omega

theorem reached_sound (nonempty : delimiter ≠ [])
    (reached : ReflTransGen (Round s delimiter) (begin s delimiter) scan) :
    scan.Sound s delimiter := by
  induction reached with
  | refl => exact begin_sound s delimiter
  | tail _ stepped ih => exact round_sound nonempty ih stepped

/-- The loop ends, and what it collects are the tokens of the model. -/
theorem exists_final (nonempty : delimiter ≠ []) (rounds : Nat) (tokens : List Str) {start : Nat}
    (enough : s.length ≤ rounds + start) :
    ∃ final : Scan, ReflTransGen (Round s delimiter)
        ⟨tokens, start, findFrom s delimiter start⟩ final ∧ final.last = none ∧
      final.tokens ++ [s.drop final.start] = tokens ++ splitLoop s delimiter rounds start := by
  induction rounds generalizing tokens start with
  | zero =>
    have nothing : s.drop start = [] := List.drop_eq_nil_of_le (by omega)
    have absent : findFrom s delimiter start = none := by
      rw [findFrom, nothing, find, if_neg nonempty, Option.map_none]
    exact ⟨_, .refl, absent, rfl⟩
  | succ rounds ih =>
    cases found : findFrom s delimiter start with
    | none => exact ⟨_, .refl, rfl, by rw [splitLoop, found]⟩
    | some last =>
      obtain ⟨offset, same, first⟩ := firstAt_of_findFrom found
      have size := List.length_pos_iff.mpr nonempty
      have later : s.length ≤ rounds + (last + delimiter.length) := by omega
      obtain ⟨final, reaches, ended, collected⟩ :=
        ih (tokens ++ [(s.drop start).take (last - start)]) later
      refine ⟨final, .head rfl reaches, ended, ?_⟩
      rw [collected, splitLoop, found, List.append_assoc, List.singleton_append]

end Scan

theorem splitLoop_tokens {s delimiter : Str} (nonempty : delimiter ≠ []) (rounds start : Nat)
    (enough : s.length ≤ rounds + start) :
    Tokens delimiter (s.drop start) (splitLoop s delimiter rounds start) := by
  induction rounds generalizing start with
  | zero =>
    rw [splitLoop, List.drop_eq_nil_of_le (by omega)]
    exact .last fun occurs => nonempty (List.infix_nil.mp occurs)
  | succ rounds ih =>
    rw [splitLoop]
    cases found : findFrom s delimiter start with
    | none => exact .last (not_infix_of_find (Option.map_eq_none_iff.mp found))
    | some last =>
      obtain ⟨offset, rfl, first⟩ := Scan.firstAt_of_findFrom found
      have size := List.length_pos_iff.mpr nonempty
      have rest := ih (start + offset + delimiter.length) (by omega)
      rw [Nat.add_assoc, ← List.drop_drop] at rest
      simp only [Nat.add_sub_cancel_left, Nat.add_assoc]
      exact .cut first rest

theorem split_tokens {s delimiter : Str} (some_ : s ≠ []) (nonempty : delimiter ≠ []) :
    Tokens delimiter s (split s delimiter) := by
  have cut := splitLoop_tokens nonempty s.length 0 (Nat.le_refl s.length)
  simpa only [split, some_, nonempty, or_self, if_false, List.drop_zero] using cut

/-- Splitting ends, loses nothing but delimiters and cuts at the leftmost ones. For
a delimiter of one character no other list of tokens does. -/
theorem split_leftmost (s delimiter : Str) :
    (s = [] ∨ delimiter = [] → split s delimiter = []) ∧
    (s ≠ [] → delimiter ≠ [] →
      (∀ scan : Scan, ReflTransGen (Scan.Round s delimiter) (.begin s delimiter) scan →
        scan.Sound s delimiter) ∧
      (∃ final : Scan, ReflTransGen (Scan.Round s delimiter) (.begin s delimiter) final ∧
        final.last = none ∧ split s delimiter = final.tokens ++ [s.drop final.start]) ∧
      delimiter.intercalate (split s delimiter) = s ∧
      (∀ token ∈ split s delimiter, ¬ delimiter <:+: token) ∧
      (∀ before token after, split s delimiter = before ++ token :: after → after ≠ [] →
        FirstAt delimiter (s.drop (startOf delimiter before)) token.length) ∧
      ∀ c, delimiter = [c] → ∀ tokens : List Str, (∀ token ∈ tokens, c ∉ token) →
        delimiter.intercalate tokens = s → tokens = split s delimiter) := by
  refine ⟨fun empty => if_pos empty, fun some_ nonempty => ?_⟩
  have cut := split_tokens some_ nonempty
  have loop : split s delimiter = splitLoop s delimiter s.length 0 := by
    simp only [split, some_, nonempty, or_self, if_false]
  refine ⟨fun scan => Scan.reached_sound nonempty, ?_, cut.join, cut.not_infix nonempty,
    fun before token after shape more => cut.firstAt nonempty shape more, ?_⟩
  · have enough : s.length ≤ s.length + 0 := Nat.le_refl _
    obtain ⟨final, reaches, ended, collected⟩ := Scan.exists_final nonempty s.length [] enough
    exact ⟨final, reaches, ended, loop.trans collected.symm⟩
  · rintro c rfl tokens free joined
    have present : tokens ≠ [] := by
      rintro rfl
      exact some_ joined.symm
    rw [split_singleton some_, ← joined, List.splitOn_intercalate c free present]

example : split (str "a;;;b;;") (str ";;") = [str "a", str ";b", []] := by decide

end SocketMessaging.Utils
