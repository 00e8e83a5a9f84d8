import SocketMessaging.Utils.Numerals
import SocketMessaging.Utils.Utils

/-! The runtime configuration over its whole life: which values `set` accepts, with
the warning logged for each it refuses, and what the store holds after any history of
`set` and `reset`. -/
namespace SocketMessaging.RuntimeConfig
open Constants Utils

def expectedInteger (key : Str) : Str :=
  str "Invalid value for " ++ key ++ str " (expected: integer)"

def outOfBounds (key : Str) (d : ConfigDef) : Str :=
  key ++ str " must be between " ++ toDecimal d.minValue ++ str " and " ++ toDecimal d.maxValue

/-- The warning that `validateValue` logs, `none` if it accepts the value. -/
def validationWarning (key value : Str) (d : ConfigDef) : Option Str :=
  match d.type with
  | .bool =>
    if value ≠ str "true" && value ≠ str "false" && value ≠ str "1" && value ≠ str "0" then
      some (str "Invalid value for " ++ key ++ str " (expected: true/false/1/0)")
    else none
  | .int => match stoi value with
    | none => some (expectedInteger key)
    | some numValue =>
      if numValue < d.minValue || d.maxValue < numValue then some (outOfBounds key d) else none

/-- The warning that `set` logs. -/
def setWarning (key value : Str) : Option Str :=
  match definitions.lookup key with
  | none => some (str "Unknown configuration: " ++ key)
  | some d => validationWarning key value d

theorem validateValue_iff {key value : Str} {d : ConfigDef} :
    validateValue value d = true ↔ validationWarning key value d = none := by
  unfold validateValue validationWarning
  cases d.type with
  | bool =>
    simp only [Bool.or_eq_true, decide_eq_true_eq, ite_eq_right_iff, reduceCtorEq, imp_false,
      Bool.and_eq_true]
    tauto
  | int =>
    cases stoi value with
    | none => simp
    | some number =>
      simp only [Bool.and_eq_true, decide_eq_true_eq, ite_eq_right_iff, reduceCtorEq, imp_false,
        Bool.or_eq_true, not_or, Int.not_lt]

/-- A value is accepted exactly if there is nothing to warn of. -/
theorem set_accepts_iff {config : RuntimeConfig} {key value : Str} :
    (set config key value).1 = true ↔ setWarning key value = none := by
  unfold set setWarning
  cases definitions.lookup key with
  | none => simp
  | some d =>
    dsimp only
    rw [← validateValue_iff]
    cases valid : validateValue value d with
    | true => exact iff_of_true rfl rfl
    | false => exact iff_of_false Bool.false_ne_true Bool.false_ne_true

/-- A value that is refused changes nothing. -/
theorem set_refused {config : RuntimeConfig} {key value : Str}
    (refused : (set config key value).1 = false) : (set config key value).2 = config := by
  unfold set at *
  cases found : definitions.lookup key with
  | none => rfl
  | some d =>
    rw [found] at refused
    dsimp only at *
    split_ifs at * with valid
    rfl

theorem stoi_eq_some {text : Str} {value : Int} :
    stoi text = some value ↔ (∃ rest, Leading text value rest) ∧
      -2 ^ 31 ≤ value ∧ value < 2 ^ 31 := by
  rw [stoi, Option.filter_eq_some_iff, strtol_eq_some, decide_eq_true_eq]

theorem definitions_range : ∀ entry ∈ definitions,
    -2 ^ 31 ≤ entry.2.minValue ∧ entry.2.maxValue < 2 ^ 31 := by
  decide

/-- An integer setting takes whole integers between its bounds and nothing else, and
anything but a whole integer is refused with the warning that says so. -/
def JudgedProperly (config : RuntimeConfig) (key value : Str) (d : ConfigDef) : Prop :=
  ((set config key value).1 = true ↔
    ∃ number, Numeral value number ∧ d.minValue ≤ number ∧ number ≤ d.maxValue) ∧
  ((∀ number, ¬ Numeral value number) →
    (set config key value).1 = false ∧ setWarning key value = some (expectedInteger key))

theorem setWarning_int {key : Str} {d : ConfigDef} (member : (key, d) ∈ definitions)
    (integer : d.type = .int) (value : Str) : setWarning key value =
      match stoi value with
      | none => some (expectedInteger key)
      | some number =>
        if number < d.minValue || d.maxValue < number then some (outOfBounds key d) else none := by
  simp only [setWarning, definitions_lookup_iff.mpr member, validationWarning, integer]

theorem definitions_warnings :
    ∀ entry ∈ definitions, outOfBounds entry.1 entry.2 ≠ expectedInteger entry.1 := by
  decide

/-- This is so exactly for texts with nothing after the integer they begin with, and
for those whose integer does not fit an `int`. -/
theorem judged_properly_iff {key : Str} {d : ConfigDef} (member : (key, d) ∈ definitions)
    (integer : d.type = .int) (config : RuntimeConfig) (value : Str) :
    JudgedProperly config key value d ↔
      ∀ number rest, Leading value number rest →
        rest = [] ∨ number < -2 ^ 31 ∨ 2 ^ 31 ≤ number := by
  have warning := setWarning_int member integer value
  constructor
  · rintro ⟨_, refused⟩ number rest leading
    by_contra fits
    have read : stoi value = some number := stoi_eq_some.mpr ⟨⟨rest, leading⟩, by omega⟩
    have partial_ : ∀ other, ¬ Numeral value other := fun other whole =>
      fits (.inl (leading.unique whole.leading).2)
    rw [(refused partial_).2, read] at warning
    dsimp only at warning
    split_ifs at warning
    exact definitions_warnings _ member (Option.some.inj warning).symm
  · intro whole
    cases read : stoi value with
    | none =>
      have refused : (set config key value).1 = false := by
        rw [← Bool.not_eq_true, set_accepts_iff, warning, read]
        exact Option.some_ne_none _
      rw [read] at warning
      refine ⟨iff_of_false (by rw [refused]; exact Bool.false_ne_true) ?_, fun _ => ⟨refused, warning⟩⟩
      rintro ⟨number, numeral, lower, upper⟩
      have range := definitions_range _ member
      dsimp only at range
      have fits := stoi_eq_some.mpr ⟨⟨[], numeral.leading⟩, by omega⟩
      exact Option.some_ne_none _ (fits.symm.trans read)
    | some number =>
      obtain ⟨⟨rest, leading⟩, lower, upper⟩ := stoi_eq_some.mp read
      obtain rfl : rest = [] := (whole number rest leading).resolve_right (by omega)
      refine ⟨?_, fun none => absurd leading.numeral (none number)⟩
      rw [set_accepts_iff, warning, read]
      simp only [ite_eq_right_iff, reduceCtorEq, imp_false, Bool.or_eq_true, decide_eq_true_eq,
        not_or, Int.not_lt]
      constructor
      · exact fun bounds => ⟨number, leading.numeral, bounds⟩
      · rintro ⟨other, numeral, bounds⟩
        rwa [(numeral.leading.unique leading).1] at bounds

/-- The definition of the timeout after which clients are disconnected. -/
def timeoutDef : ConfigDef := ⟨.int, str "90", 10, 3600⟩

theorem timeoutDef_mem : (str "HEARTBEAT_TIMEOUT_S", timeoutDef) ∈ definitions := by decide

theorem judged_properly_of_sixty :
    JudgedProperly initial (str "HEARTBEAT_TIMEOUT_S") (str "60") timeoutDef := by
  refine (judged_properly_iff timeoutDef_mem rfl initial (str "60")).mpr fun number rest leading => ?_
  exact .inl (reads_leading leading).2.symm

/-- What follows the digits is ignored. -/
theorem not_always_judged_properly : ¬ ∀ (config : RuntimeConfig) (key value : Str) (d : ConfigDef),
    (key, d) ∈ definitions → d.type = .int → JudgedProperly config key value d := by
  intro claimed
  obtain ⟨accepts, _⟩ := claimed initial _ (str "60abc") timeoutDef timeoutDef_mem rfl
  have accepted : (set initial (str "HEARTBEAT_TIMEOUT_S") (str "60abc")).1 = true := by
    decide
  obtain ⟨number, numeral, _⟩ := accepts.mp accepted
  have left := (reads_leading numeral.leading).2
  exact absurd left (by decide)

/-! What the store holds. -/

inductive Call where
  | set (key value : Str)
  | reset

/-- The store, with the value that `set` last accepted for each key since the start
or the last `reset`. -/
structure History where
  config : RuntimeConfig
  accepted : Str → Option Str

namespace History
variable {h : History}

def start : History := ⟨.initial, fun _ => none⟩

def after (h : History) : Call → History
  | .set key value =>
    let result := h.config.set key value
    { config := result.2
      accepted := if result.1 then Function.update h.accepted key (some value) else h.accepted }
  | .reset => ⟨h.config.reset, fun _ => none⟩

/-- What a key should hold: the value last accepted, or its default. -/
def held (h : History) (key : Str) (d : ConfigDef) : Str := (h.accepted key).getD d.defaultValue

/-- The keys are those of the table, and each holds what it should, which is valid. -/
structure Sound (h : History) : Prop where
  keys : ∀ key, h.config.lookup key ≠ none → key ∈ definitions.map Prod.fst
  stored : ∀ {key : Str} {d : ConfigDef}, (key, d) ∈ definitions →
    h.config.lookup key = some (h.held key d)
  valid : ∀ {key : Str} {d : ConfigDef}, (key, d) ∈ definitions →
    validateValue (h.held key d) d = true

theorem reset_sound {config : RuntimeConfig}
    (keys : ∀ key, config.lookup key ≠ none → key ∈ definitions.map Prod.fst) :
    Sound ⟨config.reset, fun _ => none⟩ where
  keys := by
    intro key present
    cases found : definitions.lookup key with
    | none =>
      rw [lookup_reset, found] at present
      exact keys key present
    | some d => exact List.mem_map.mpr ⟨_, mem_of_lookup found, rfl⟩
  stored := by
    intro key d member
    rw [lookup_reset, definitions_lookup_iff.mpr member]
    rfl
  valid := fun member => defaults_valid _ member

theorem start_sound : start.Sound :=
  reset_sound fun key present => absurd (AList.lookup_empty key) present

theorem held_update (h : History) (config : RuntimeConfig) (key value other : Str) (d : ConfigDef) :
    held ⟨config, Function.update h.accepted key (some value)⟩ other d =
      if other = key then value else h.held other d := by
  simp only [held, Function.update_apply]
  split_ifs <;> rfl

/-- A value that is accepted replaces the one held for its key only. -/
theorem set_sound (sound : h.Sound) {key value : Str} {d : ConfigDef}
    (member : (key, d) ∈ definitions)
    (valid : validateValue value d = true) :
    Sound ⟨h.config.insert key value, Function.update h.accepted key (some value)⟩ where
  keys := by
    intro other present
    by_cases same : other = key
    · exact same ▸ List.mem_map.mpr ⟨_, member, rfl⟩
    · rw [AList.lookup_insert_ne same] at present
      exact sound.keys other present
  stored := by
    intro other e listed
    by_cases same : other = key
    · subst same
      rw [AList.lookup_insert, held_update, if_pos rfl]
    · rw [AList.lookup_insert_ne same, held_update, if_neg same]
      exact sound.stored listed
  valid := by
    intro other e listed
    by_cases same : other = key
    · subst same
      rw [held_update, if_pos rfl, definitions_unique listed member]
      exact valid
    · rw [held_update, if_neg same]
      exact sound.valid listed

theorem after_sound (sound : h.Sound) (call : Call) : (h.after call).Sound := by
  cases call with
  | reset => exact reset_sound sound.keys
  | set key value =>
    cases found : definitions.lookup key with
    | none =>
      have refused : h.config.set key value = (false, h.config) := by simp only [set, found]
      rw [after, refused]
      exact sound
    | some d =>
      by_cases valid : validateValue value d = true
      · have taken : h.config.set key value = (true, h.config.insert key value) := by
          simp only [set, found, valid, if_true]
        rw [after, taken]
        exact set_sound sound (mem_of_lookup found) valid
      · have refused : h.config.set key value = (false, h.config) := by
          simp only [set, found, valid, Bool.false_eq_true, if_false]
        rw [after, refused]
        exact sound

theorem foldl_sound (calls : List Call) (sound : h.Sound) : (calls.foldl after h).Sound := by
  induction calls generalizing h with
  | nil => exact sound
  | cons call calls ih => exact ih (after_sound sound call)

theorem Sound.keys_iff (sound : h.Sound) (key : Str) :
    key ∈ h.config ↔ key ∈ definitions.map Prod.fst := by
  rw [← AList.lookup_isSome, ← Option.ne_none_iff_isSome]
  constructor
  · exact sound.keys key
  · intro listed
    obtain ⟨⟨key, d⟩, member, rfl⟩ := List.mem_map.mp listed
    rw [sound.stored member]
    exact Option.some_ne_none _

/-- An integer setting reads back as the integer that was validated. -/
theorem Sound.getInt (sound : h.Sound) {key : Str} {d : ConfigDef}
    (member : (key, d) ∈ definitions)
    (integer : d.type = .int) : ∃ number, stoi (h.held key d) = some number ∧
      h.config.getInt key = some number ∧ d.minValue ≤ number ∧ number ≤ d.maxValue := by
  have valid := sound.valid member
  simp only [validateValue, integer] at valid
  cases read : stoi (h.held key d) with
  | none => simp [read] at valid
  | some number =>
    simp only [read, Bool.and_eq_true, decide_eq_true_eq] at valid
    have parsed : h.config.getInt key = some number := by
      rw [RuntimeConfig.getInt, sound.stored member, Option.bind_some, read]
    exact ⟨number, rfl, parsed, valid⟩

theorem Sound.bool (sound : h.Sound) {key : Str} {d : ConfigDef} (member : (key, d) ∈ definitions)
    (boolean : d.type = .bool) : h.held key d ∈ [str "true", str "false", str "1", str "0"] := by
  have valid := sound.valid member
  simpa [validateValue, boolean, or_assoc] using valid

end History

theorem minValue_nonneg : ∀ entry ∈ definitions, 0 ≤ entry.2.minValue := by decide

/-- A limit that is read from an integer setting is never negative when it is cast. -/
theorem lengthLimit_eq {h : History} (sound : h.Sound) {key : Str} {d : ConfigDef}
    (member : (key, d) ∈ definitions) (integer : d.type = .int) (constant : Nat) :
    ∃ number, 0 ≤ number ∧ h.config.getInt key = some number ∧
      lengthLimit h.config key constant = number.toNat := by
  obtain ⟨number, _, read, lower, upper⟩ := sound.getInt member integer
  have least := minValue_nonneg _ member
  have most := (definitions_range _ member).2
  dsimp only at least most
  refine ⟨number, by omega, read, ?_⟩
  simp only [lengthLimit, read, sizeOfInt]
  omega

/-- Whatever `set` and `reset` were called with, the keys are those of the table,
every integer setting is the validated integer of what it should hold and every
boolean one an accepted word, and a refused `set` changes nothing. -/
theorem always_well_formed (calls : List Call) :
    let h := calls.foldl History.after .start
    (∀ key, key ∈ h.config ↔ key ∈ definitions.map Prod.fst) ∧
    (∀ key d, (key, d) ∈ definitions → h.config.lookup key = some (h.held key d) ∧
      (d.type = .int → ∃ number, stoi (h.held key d) = some number ∧
        h.config.getInt key = some number ∧ d.minValue ≤ number ∧ number ≤ d.maxValue) ∧
      (d.type = .bool → h.held key d ∈ [str "true", str "false", str "1", str "0"])) ∧
    (∀ key ∈ [str "MAX_USERNAME_LENGTH", str "MAX_SUBJECT_LENGTH"], ∀ constant,
      ∃ number, 0 ≤ number ∧ h.config.getInt key = some number ∧
        lengthLimit h.config key constant = number.toNat) ∧
    ∀ key value, (h.config.set key value).1 = false → (h.config.set key value).2 = h.config := by
  intro h
  have sound : h.Sound := History.foldl_sound calls History.start_sound
  refine ⟨sound.keys_iff, fun key d member => ?_, fun key listed constant => ?_,
    fun key value => set_refused⟩
  · exact ⟨sound.stored member, sound.getInt member, sound.bool member⟩
  · have limits : ∀ key ∈ [str "MAX_USERNAME_LENGTH", str "MAX_SUBJECT_LENGTH"],
        ∃ entry ∈ definitions, entry.1 = key ∧ entry.2.type = .int := by decide
    obtain ⟨⟨_, d⟩, member, rfl, integer⟩ := limits key listed
    exact lengthLimit_eq sound member integer constant

end SocketMessaging.RuntimeConfig
