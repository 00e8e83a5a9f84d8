import SocketMessaging.Utils.Text

/-! Constants and the settings that the administrator can change at run time.
The store keeps the text that was accepted and every reader parses it again. -/
namespace SocketMessaging

namespace Constants

def maxMessageSize : Nat := 10 * 1024 * 1024
def maxQueueSize : Nat := 1000
def heartbeatIntervalS : Int := 30
def heartbeatCheckDelayS : Int := 5
def heartbeatTimeoutS : Int := 90
def clientTimeoutS : Int := 120
def threadPoolSize : Nat := 12
def maxUsernameLength : Nat := 32
def maxSubjectLength : Nat := 100
def minUsernameLength : Int := 3
def maxUsernameLengthLimit : Int := 100
def minSubjectLength : Int := 10
def maxSubjectLengthLimit : Int := 500
def minHeartbeatIntervalS : Int := 5
def minHeartbeatTimeoutS : Int := 10
def messageDelimiter : Str := str ";"

end Constants

inductive ConfigType where
  | int
  | bool
  deriving DecidableEq

structure ConfigDef where
  type : ConfigType
  defaultValue : Str
  minValue : Int
  maxValue : Int
  deriving DecidableEq

abbrev RuntimeConfig := StrMap Str

namespace RuntimeConfig
open Constants

/-- The table filled by `initializeDefinitions`. -/
def definitions : List (Str × ConfigDef) :=
  [(str "HEARTBEAT_INTERVAL_S", ⟨.int, toDecimal heartbeatIntervalS, minHeartbeatIntervalS, 3600⟩),
   (str "HEARTBEAT_CHECK_DELAY_S", ⟨.int, toDecimal heartbeatCheckDelayS, 1, 60⟩),
   (str "HEARTBEAT_TIMEOUT_S", ⟨.int, toDecimal heartbeatTimeoutS, minHeartbeatTimeoutS, 3600⟩),
   (str "CLIENT_TIMEOUT_S", ⟨.int, toDecimal clientTimeoutS, 10, 3600⟩),
   (str "MAX_QUEUE_SIZE", ⟨.int, toDecimal maxQueueSize, 10, 100000⟩),
   (str "THREAD_POOL_SIZE", ⟨.int, toDecimal threadPoolSize, 1, 128⟩),
   (str "MAX_USERNAME_LENGTH",
     ⟨.int, toDecimal maxUsernameLength, minUsernameLength, maxUsernameLengthLimit⟩),
   (str "MAX_SUBJECT_LENGTH",
     ⟨.int, toDecimal maxSubjectLength, minSubjectLength, maxSubjectLengthLimit⟩),
   (str "AUTO_STOP_WHEN_NO_CLIENTS", ⟨.bool, str "false", 0, 0⟩)]

def validateValue (value : Str) (d : ConfigDef) : Bool :=
  match d.type with
  | .bool => value = str "true" || value = str "false" || value = str "1" || value = str "0"
  | .int => match stoi value with
    | none => false
    | some numValue => d.minValue ≤ numValue && numValue ≤ d.maxValue

/-- `set`: whether the value was accepted, and the store afterwards. -/
def set (config : RuntimeConfig) (key value : Str) : Bool × RuntimeConfig :=
  match definitions.lookup key with
  | none => (false, config)
  | some d => if validateValue value d then (true, config.insert key value) else (false, config)

def getInt (config : RuntimeConfig) (key : Str) : Option Int :=
  (config.lookup key).bind stoi

def getBool (config : RuntimeConfig) (key : Str) : Option Bool :=
  (config.lookup key).map fun value => value = str "true" || value = str "1"

def reset (config : RuntimeConfig) : RuntimeConfig :=
  definitions.foldl (fun config (key, d) => config.insert key d.defaultValue) config

/-- The store built by the constructor. -/
def initial : RuntimeConfig := reset ∅

/-- Every defined key holds a text that its own check accepts. -/
def WellFormed (config : RuntimeConfig) : Prop :=
  ∀ entry ∈ definitions, ∃ value, config.lookup entry.1 = some value ∧
    validateValue value entry.2 = true

theorem definitions_keys : (definitions.map Prod.fst).Nodup := by decide

theorem defaults_valid : ∀ entry ∈ definitions, validateValue entry.2.defaultValue entry.2 = true := by
  decide

theorem definitions_unique {key : Str} {d e : ConfigDef} (first : (key, d) ∈ definitions)
    (second : (key, e) ∈ definitions) : d = e :=
  congrArg Prod.snd (List.inj_on_of_nodup_map definitions_keys first second rfl)

private theorem lookup_fold_insert (entries : List (Str × ConfigDef)) (config : RuntimeConfig)
    (distinct : (entries.map Prod.fst).Nodup) (key : Str) :
    (entries.foldl (fun config (key, d) => config.insert key d.defaultValue) config).lookup key =
      match entries.lookup key with
      | some d => some d.defaultValue
      | none => config.lookup key := by
  induction entries generalizing config with
  | nil => rfl
  | cons entry rest ih =>
    obtain ⟨name, d⟩ := entry
    simp only [List.map_cons, List.nodup_cons] at distinct
    rw [List.foldl_cons, ih _ distinct.2]
    by_cases same : key = name
    · subst same
      have absent : rest.lookup key = none := by
        rw [List.lookup_eq_none_iff]
        intro entry member
        have outside : entry.1 ≠ key := fun same =>
          distinct.1 (same ▸ List.mem_map_of_mem member)
        simpa using Ne.symm outside
      simp [absent]
    · have different : (key == name) = false := by simpa using same
      simp only [List.lookup_cons, different]
      cases rest.lookup key with
      | some d => rfl
      | none => exact AList.lookup_insert_ne same

theorem lookup_reset (config : RuntimeConfig) (key : Str) : (reset config).lookup key =
    match definitions.lookup key with
    | some d => some d.defaultValue
    | none => config.lookup key :=
  lookup_fold_insert definitions config definitions_keys key

theorem definitions_lookup_iff {key : Str} {d : ConfigDef} :
    definitions.lookup key = some d ↔ (key, d) ∈ definitions := by
  constructor
  · exact mem_of_lookup
  · intro member
    cases found : definitions.lookup key with
    | none =>
      have absent := List.lookup_eq_none_iff.mp found (key, d) member
      simp at absent
    | some other => rw [definitions_unique (mem_of_lookup found) member]

theorem reset_wellFormed (config : RuntimeConfig) : WellFormed (reset config) := by
  intro entry member
  refine ⟨entry.2.defaultValue, ?_, defaults_valid entry member⟩
  rw [lookup_reset, definitions_lookup_iff.mpr member]

theorem initial_wellFormed : WellFormed initial := reset_wellFormed ∅

theorem set_wellFormed {config : RuntimeConfig} (formed : WellFormed config) (key value : Str) :
    WellFormed (set config key value).2 := by
  unfold set
  cases found : definitions.lookup key with
  | none => exact formed
  | some d =>
    by_cases valid : validateValue value d = true
    · simp only [valid, if_true]
      intro entry member
      by_cases same : entry.1 = key
      · have own : entry.2 = d := definitions_unique
          (same ▸ member : (key, entry.2) ∈ definitions) (mem_of_lookup found)
        exact ⟨value, by rw [same, AList.lookup_insert], own ▸ valid⟩
      · rw [AList.lookup_insert_ne same]
        exact formed entry member
    · simpa only [valid, Bool.false_eq_true, if_false] using formed

/-- Integer settings always read back within the bounds of their definition. -/
theorem WellFormed.getInt {config : RuntimeConfig} (formed : WellFormed config) {key : Str}
    {d : ConfigDef} (member : (key, d) ∈ definitions) (integer : d.type = .int) :
    ∃ value, RuntimeConfig.getInt config key = some value ∧ d.minValue ≤ value ∧ value ≤ d.maxValue := by
  obtain ⟨text, stored, valid⟩ := formed (key, d) member
  simp only [validateValue, integer] at valid
  cases parsed : stoi text with
  | none => simp [parsed] at valid
  | some value =>
    simp only [parsed, Bool.and_eq_true, decide_eq_true_eq] at valid
    exact ⟨value, by rw [RuntimeConfig.getInt, stored, Option.bind_some, parsed], valid⟩

end RuntimeConfig
end SocketMessaging
