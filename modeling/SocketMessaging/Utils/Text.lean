import Mathlib.Algebra.Group.Int.Defs
import Mathlib.Algebra.GroupWithZero.Nat
import Mathlib.Data.List.AList

/-! Strings of the program. A `std::string` is any sequence of bytes, and the
classification functions of `<cctype>` are those of the "C" locale, which the
program never changes. -/
namespace SocketMessaging
universe u

abbrev Str := List UInt8

/-- The bytes of a string literal of the source (all of them are ASCII). -/
def str (literal : String) : Str := literal.toList.map fun c => UInt8.ofNat c.toNat

/-- `std::unordered_map` keyed by strings; the order of the entries carries no meaning. -/
abbrev StrMap (β : Type) := AList fun _ : Str => β

/-- What a lookup in a table finds is one of its entries. -/
theorem mem_of_lookup {β : Type u} {entries : List (Str × β)} {key : Str} {value : β}
    (found : entries.lookup key = some value) : (key, value) ∈ entries := by
  obtain ⟨before, after, rfl, _⟩ := List.lookup_eq_some_iff.mp found
  exact List.mem_append_right before List.mem_cons_self

/-- `static_cast<size_t>` of an `int`. -/
def sizeOfInt (value : Int) : Nat := (value % 2 ^ 64).toNat

def isdigit (c : UInt8) : Bool := 48 ≤ c && c ≤ 57

def isalpha (c : UInt8) : Bool := (65 ≤ c && c ≤ 90) || (97 ≤ c && c ≤ 122)

def isalnum (c : UInt8) : Bool := isalpha c || isdigit c

def iscntrl (c : UInt8) : Bool := c < 32 || c == 127

def isspace (c : UInt8) : Bool := c == 32 || (9 ≤ c && c ≤ 13)

/-- `std::to_string` of an integer. -/
def toDecimal (value : Int) : Str :=
  let digits := (Nat.toDigits 10 value.natAbs).map fun c => UInt8.ofNat c.toNat
  if value < 0 then 45 :: digits else digits

/-- `strtol` in base ten: leading white space, one optional sign, then as many
digits as follow; `none` when there is no digit. -/
def strtol (text : Str) : Option Int :=
  let body := text.dropWhile isspace
  let (sign, rest) := match body with
    | 45 :: tail => ((-1 : Int), tail)
    | 43 :: tail => (1, tail)
    | tail => (1, tail)
  let digits := rest.takeWhile isdigit
  if digits = [] then none
  else some (sign * (digits.foldl (fun value c => 10 * value + (c.toNat - 48)) 0 : Nat))

/-- `std::stoi`; `none` stands for either exception, no conversion or out of range. -/
def stoi (text : Str) : Option Int :=
  (strtol text).filter fun value => -2 ^ 31 ≤ value ∧ value < 2 ^ 31

/-- `std::stoll`, likewise. -/
def stoll (text : Str) : Option Int :=
  (strtol text).filter fun value => -2 ^ 63 ≤ value ∧ value < 2 ^ 63

/-- The characters that `Nat.toDigits` renders are digits of the same code. -/
theorem toDigits_code {n : Nat} {d : Char} (member : d ∈ Nat.toDigits 10 n) :
    48 ≤ d.toNat ∧ d.toNat ≤ 57 := by
  have shown := Nat.isDigit_of_mem_toDigits (Nat.succ_pos 9) le_rfl member
  simp only [Char.isDigit, Bool.and_eq_true, decide_eq_true_eq, UInt32.le_iff_toNat_le] at shown
  exact shown

/-- A decimal rendering consists of digits and possibly a minus sign. -/
theorem toDecimal_mem {value : Int} {c : UInt8} (member : c ∈ toDecimal value) :
    c = 45 ∨ isdigit c = true := by
  have digit : ∀ c ∈ (Nat.toDigits 10 value.natAbs).map (fun c => UInt8.ofNat c.toNat),
      isdigit c = true := by
    intro c listed
    obtain ⟨d, mem, rfl⟩ := List.mem_map.mp listed
    obtain ⟨lower, upper⟩ := toDigits_code mem
    simp only [isdigit, Bool.and_eq_true, decide_eq_true_eq, UInt8.le_iff_toNat_le,
      UInt8.toNat_ofNat']
    change 48 ≤ _ ∧ _ ≤ 57
    omega
  unfold toDecimal at member
  split at member
  · exact (List.mem_cons.mp member).imp_right (digit c)
  · exact Or.inr (digit c member)

end SocketMessaging
