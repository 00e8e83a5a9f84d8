import SocketMessaging.Library.Delimited
import SocketMessaging.Utils.RuntimeConfig

/-! The helpers of `Utils.cpp`: validation under the current settings,
sanitizing, splitting and timestamps. -/
namespace SocketMessaging.Utils

/-- The configured length limit, or the constant when the setting is missing. -/
def lengthLimit (config : RuntimeConfig) (key : Str) (constant : Nat) : Nat :=
  match config.getInt key with
  | some maxLength => sizeOfInt maxLength
  | none => constant

def isValidUsername (config : RuntimeConfig) (username : Str) : Bool :=
  if username = [] then false
  else
    let limit := lengthLimit config (str "MAX_USERNAME_LENGTH") Constants.maxUsernameLength
    if limit < username.length then false
    else username.all fun c => isalnum c || c == 95

def isValidSubject (config : RuntimeConfig) (subject : Str) : Bool :=
  if subject = [] then false
  else
    let limit := lengthLimit config (str "MAX_SUBJECT_LENGTH") Constants.maxSubjectLength
    subject.length ≤ limit

def isValidBody (body : Str) : Bool := !body.isEmpty

/-- Control characters other than newline and tab become spaces. -/
def sanitize (input : Str) : Str :=
  input.map fun c => if iscntrl c && c != 10 && c != 9 then 32 else c

/-- `s.find(delimiter, start)`. -/
def findFrom (s delimiter : Str) (start : Nat) : Option Nat :=
  (Delimited.find delimiter (s.drop start)).map (start + ·)

/-- The scanning loop of `split` from `start`. A round moves `start` past one
delimiter, so the length of the string bounds the number of rounds. -/
def splitLoop (s delimiter : Str) : Nat → Nat → List Str
  | 0, start => [s.drop start]
  | rounds + 1, start =>
    match findFrom s delimiter start with
    | none => [s.drop start]
    | some last =>
      (s.drop start).take (last - start) :: splitLoop s delimiter rounds (last + delimiter.length)

def split (s delimiter : Str) : List Str :=
  if s = [] ∨ delimiter = [] then [] else splitLoop s delimiter s.length 0

/-- `to_time_t` drops the fraction of the nanosecond clock. -/
def timestampToUnixString (timestamp : Int) : Str := toDecimal (timestamp.tdiv 1000000000)

/-- `from_time_t`: the product is the clock's count of nanoseconds in 64 bits. There
is no check; where the product overflows, it is taken to wrap around. -/
def fromTimeT (seconds : Int) : Int := (seconds * 1000000000).bmod (2 ^ 64)

/-- The exceptions of `std::stoll` are replaced by the current time. -/
def unixStringToTimestamp (now : Int) (text : Str) : Int :=
  match stoll text with
  | some seconds => fromTimeT seconds
  | none => now

/-- The timestamp of an administrator's message is the epoch. -/
theorem unixStringToTimestamp_zero (now : Int) : unixStringToTimestamp now (str "0") = 0 := by
  have zero : stoll (str "0") = some 0 := by decide
  have start : fromTimeT 0 = 0 := by decide
  unfold unixStringToTimestamp
  rw [zero]
  exact start

/-- The characters a username may consist of. -/
def NameText (name : Str) : Prop := name ≠ [] ∧ ∀ c ∈ name, isalnum c = true ∨ c = 95

theorem isValidUsername_iff {config : RuntimeConfig} {username : Str} :
    isValidUsername config username = true ↔ NameText username ∧ username.length ≤
      lengthLimit config (str "MAX_USERNAME_LENGTH") Constants.maxUsernameLength := by
  unfold isValidUsername NameText
  by_cases empty : username = []
  · simp [empty]
  · simp only [empty, if_false, ne_eq, not_false_eq_true, true_and]
    split
    · rename_i long
      simp only [Bool.false_eq_true, false_iff]
      omega
    · rename_i bounded
      simp only [not_lt.mp bounded, and_true]
      simp

theorem NameText.free {name : Str} (text : NameText name) {c : UInt8} (other : isalnum c = false)
    (score : c ≠ 95) : c ∉ name := by
  intro member
  rcases text.2 c member with alnum | same
  · rw [other] at alnum
    contradiction
  · exact score same

theorem NameText.no_delimiter {name : Str} (text : NameText name) : (59 : UInt8) ∉ name :=
  text.free (by decide) (by decide)

/-- Under a well-formed configuration names stay below the hard limit. -/
theorem usernameLimit_le {config : RuntimeConfig} (formed : config.WellFormed) :
    lengthLimit config (str "MAX_USERNAME_LENGTH") Constants.maxUsernameLength ≤ 100 := by
  have defined : (str "MAX_USERNAME_LENGTH", (⟨.int, toDecimal Constants.maxUsernameLength,
      Constants.minUsernameLength, Constants.maxUsernameLengthLimit⟩ : ConfigDef)) ∈
      RuntimeConfig.definitions := by decide
  obtain ⟨limit, stored, lower, upper⟩ := formed.getInt defined rfl
  change (3 : Int) ≤ limit at lower
  change limit ≤ 100 at upper
  simp only [lengthLimit, stored, sizeOfInt]
  omega

theorem sanitize_length (input : Str) : (sanitize input).length = input.length := List.length_map _

theorem sanitize_eq_nil {input : Str} : sanitize input = [] ↔ input = [] := List.map_eq_nil_iff

/-- Sanitizing neither introduces nor removes a printable character. -/
theorem mem_sanitize {input : Str} {c : UInt8} (printable : iscntrl c = false) (visible : c ≠ 32) :
    c ∈ sanitize input ↔ c ∈ input := by
  simp only [sanitize, List.mem_map]
  constructor
  · rintro ⟨d, member, same⟩
    split at same
    · exact absurd same.symm visible
    · exact same ▸ member
  · intro member
    exact ⟨c, member, by simp [printable]⟩

theorem not_iscntrl_of_name {c : UInt8} (name : isalnum c = true ∨ c = 95) : iscntrl c = false := by
  rcases name with alnum | rfl
  · simp only [isalnum, isalpha, isdigit, Bool.or_eq_true, Bool.and_eq_true, decide_eq_true_eq,
      UInt8.le_iff_toNat_le] at alnum
    simp only [iscntrl, Bool.or_eq_false_iff, decide_eq_false_iff_not, beq_eq_false_iff_ne,
      UInt8.lt_iff_toNat_lt, ne_eq, ← UInt8.toNat_inj]
    simp only [UInt8.reduceToNat] at *
    omega
  · decide

/-- Names pass through sanitizing unchanged. -/
theorem NameText.sanitize_eq {name : Str} (text : NameText name) : sanitize name = name := by
  have unchanged : ∀ c ∈ name, (if iscntrl c && c != 10 && c != 9 then 32 else c) = c := by
    intro c member
    simp [not_iscntrl_of_name (text.2 c member)]
  exact (List.map_congr_left unchanged).trans (List.map_id' name)

/-- The loop tokenizes the rest of the string once the remaining rounds cover it. -/
theorem splitLoop_singleton (s : Str) (sep : UInt8) (rounds start : Nat)
    (enough : s.length ≤ rounds + start) :
    splitLoop s [sep] rounds start = (s.drop start).splitOn sep := by
  induction rounds generalizing start with
  | zero =>
    rw [splitLoop, List.drop_eq_nil_of_le (by omega), List.splitOn_nil]
  | succ rounds ih =>
    rw [splitLoop, findFrom]
    cases found : Delimited.find [sep] (s.drop start) with
    | none => exact (Delimited.splitOn_of_find_none found).symm
    | some offset =>
      have rest := ih (start + (offset + 1)) (by omega)
      simp only [Option.map_some, List.length_singleton, Nat.add_sub_cancel_left, rest,
        Delimited.splitOn_of_find found, List.drop_drop, Nat.add_assoc]

theorem split_singleton {s : Str} (nonempty : s ≠ []) (sep : UInt8) :
    split s [sep] = s.splitOn sep := by
  simp only [split, nonempty, List.cons_ne_nil, or_self, if_false]
  exact splitLoop_singleton s sep s.length 0 (Nat.le_refl _)

end SocketMessaging.Utils
