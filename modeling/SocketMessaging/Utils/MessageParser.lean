import SocketMessaging.Utils.Utils

/-! The delimiter-separated text protocol: `build` joins the fields and ends the
message with a newline, `parse` strips one newline and splits. Fields are not
escaped, so the two are inverse only on fields free of the delimiter. -/
namespace SocketMessaging

structure ParsedMessage where
  command : Str
  arguments : List Str
  isValid : Bool
  deriving DecidableEq

namespace ParsedMessage

/-- A default-constructed result. -/
def invalid : ParsedMessage := ⟨[], [], false⟩

def argCount (message : ParsedMessage) : Nat := message.arguments.length

def arg (message : ParsedMessage) (index : Nat) : Str := message.arguments.getD index []

end ParsedMessage

namespace MessageParser
open Utils Constants

def parse (rawMessage : Str) : ParsedMessage :=
  if rawMessage = [] then .invalid
  else
    let cleaned := if rawMessage.getLast? = some 10 then rawMessage.dropLast else rawMessage
    match split cleaned messageDelimiter with
    | [] => .invalid
    | command :: arguments => ⟨command, arguments, true⟩

def build (command : Str) (args : List Str) : Str :=
  command ++ args.flatMap (fun arg => messageDelimiter ++ arg) ++ [10]

theorem build_length (command : Str) (args : List Str) :
    (build command args).length = command.length + (args.map fun arg => arg.length + 1).sum + 1 := by
  have delimiter : ∀ arg : Str, (messageDelimiter ++ arg).length = arg.length + 1 := by
    intro arg
    rw [List.length_append, Nat.add_comm]
    rfl
  simp only [build, List.length_append, List.length_flatMap, delimiter, List.length_singleton]

theorem build_ne_nil (command : Str) (args : List Str) : build command args ≠ [] := by
  simp [build]

/-- Splitting a joined message concatenates the splittings of its fields. -/
theorem splitOn_fields (command : Str) (args : List Str) :
    (command ++ args.flatMap (fun arg => messageDelimiter ++ arg)).splitOn 59 =
      (command :: args).flatMap fun field => field.splitOn 59 := by
  induction args generalizing command with
  | nil => simp
  | cons arg args ih =>
    have shape : command ++ (arg :: args).flatMap (fun arg => messageDelimiter ++ arg) =
        command ++ 59 :: (arg ++ args.flatMap fun arg => messageDelimiter ++ arg) := by
      simp only [List.flatMap_cons, List.append_assoc]
      rfl
    rw [shape, List.splitOn_append_cons_self, ih, ← List.flatMap_cons]

/-- What the receiver makes of a built message, whatever its fields contain. -/
theorem parse_build {command : Str} {args : List Str} (nonempty : command ≠ [] ∨ args ≠ []) :
    parse (build command args) =
      match (command :: args).flatMap fun field => field.splitOn 59 with
      | [] => .invalid
      | first :: rest => ⟨first, rest, true⟩ := by
  have joined : command ++ args.flatMap (fun arg => messageDelimiter ++ arg) ≠ [] := by
    intro empty
    obtain ⟨noCommand, noArgs⟩ := List.append_eq_nil_iff.mp empty
    cases args with
    | nil => simp [noCommand] at nonempty
    | cons arg args => simp [messageDelimiter, str] at noArgs
  have last : (build command args).getLast? = some 10 := by simp [build]
  have stripped : (build command args).dropLast =
      command ++ args.flatMap fun arg => messageDelimiter ++ arg := by
    rw [build, List.dropLast_concat]
  simp only [parse, build_ne_nil, last, stripped, if_true, if_false]
  rw [show messageDelimiter = [59] from rfl] at *
  rw [split_singleton joined, ← splitOn_fields]
  rfl

/-- Fields without the delimiter survive the round trip. -/
theorem parse_build_free {command : Str} {args : List Str} (nonempty : command ≠ [] ∨ args ≠ [])
    (free : ∀ field ∈ command :: args, (59 : UInt8) ∉ field) :
    parse (build command args) = ⟨command, args, true⟩ := by
  have whole : ∀ fields : List Str, (∀ field ∈ fields, (59 : UInt8) ∉ field) →
      (fields.flatMap fun field => field.splitOn 59) = fields := by
    intro fields free
    induction fields with
    | nil => rfl
    | cons field fields ih =>
      rw [List.flatMap_cons, List.splitOn_eq_singleton (free field List.mem_cons_self),
        ih fun other member => free other (List.mem_cons_of_mem _ member), List.singleton_append]
  rw [parse_build nonempty, whole _ free]

theorem parse_build_empty : parse (build [] []) = .invalid := rfl

/-- Splitting leaves the fields alone only if there is nothing to split. -/
theorem free_of_flatMap_splitOn {fields : List Str}
    (same : (fields.flatMap fun field => field.splitOn 59) = fields) :
    ∀ field ∈ fields, (59 : UInt8) ∉ field := by
  intro field member
  obtain ⟨whole, _, piece⟩ := List.mem_flatMap.mp (same.symm ▸ member)
  exact Delimited.free_of_splitOn whole field piece

/-- The last newline of a message, if there is one, is not part of its fields. -/
theorem parse_eq {raw command : Str} {arguments : List Str}
    (parsed : parse raw = ⟨command, arguments, true⟩) :
    ∃ cleaned, raw = (if raw.getLast? = some 10 then cleaned ++ [10] else cleaned) ∧
      cleaned.splitOn 59 = command :: arguments := by
  unfold parse at parsed
  by_cases empty : raw = []
  · rw [if_pos empty] at parsed
    cases parsed
  · rw [if_neg empty] at parsed
    dsimp only at parsed
    refine ⟨if raw.getLast? = some 10 then raw.dropLast else raw, ?_, ?_⟩
    · split
      · rename_i newline
        exact (List.dropLast_append_getLast? 10 newline).symm
      · rfl
    · generalize (if raw.getLast? = some 10 then raw.dropLast else raw) = cleaned at parsed
      by_cases nothing : cleaned = []
      · simp [nothing, split, ParsedMessage.invalid] at parsed
      · rw [show messageDelimiter = [59] from rfl, split_singleton nothing] at parsed
        split at parsed
        · cases parsed
        · rename_i pieces
          cases parsed
          exact pieces

theorem build_of_splitOn {cleaned command : Str} {arguments : List Str}
    (pieces : cleaned.splitOn 59 = command :: arguments) :
    build command arguments = cleaned ++ [10] := by
  have joined : [59].intercalate (cleaned.splitOn 59) = cleaned := List.intercalate_splitOn 59
  rw [pieces, Delimited.intercalate_cons] at joined
  exact congrArg (· ++ [10]) joined

/-- The two are inverse exactly on fields free of the delimiter, and building
what was parsed restores the message up to its final newline. -/
theorem parse_build_inverse :
    (∀ (command : Str) (args : List Str), parse (build command args) = ⟨command, args, true⟩ ↔
      (∀ field ∈ command :: args, (59 : UInt8) ∉ field) ∧ ¬ (command = [] ∧ args = [])) ∧
    ∀ raw, (parse raw).isValid = true → build (parse raw).command (parse raw).arguments =
      if raw.getLast? = some 10 then raw else raw ++ [10] := by
  constructor
  · intro command args
    constructor
    · intro parsed
      have nonempty : ¬ (command = [] ∧ args = []) := by
        rintro ⟨rfl, rfl⟩
        rw [parse_build_empty] at parsed
        cases parsed
      rw [parse_build (not_and_or.mp nonempty)] at parsed
      refine ⟨free_of_flatMap_splitOn ?_, nonempty⟩
      split at parsed
      · cases parsed
      · rename_i pieces
        cases parsed
        exact pieces
    · rintro ⟨free, nonempty⟩
      exact parse_build_free (not_and_or.mp nonempty) free
  · intro raw valid
    cases shape : parse raw with
    | mk command arguments isValid =>
      rw [shape] at valid
      cases valid
      obtain ⟨cleaned, ends, pieces⟩ := parse_eq shape
      dsimp only
      rw [build_of_splitOn pieces]
      split at ends
      · rename_i newline
        rw [if_pos newline, ends]
      · rename_i newline
        rw [if_neg newline, ends]

end MessageParser
end SocketMessaging
