import Mathlib.Data.List.TakeWhile
import SocketMessaging.Utils.Text

/-! What `strtol` and the functions built on it accept, stated as a grammar: white
space, an optional sign and digits. The conversion reads the longest such prefix
and ignores what follows it. -/
namespace SocketMessaging

def digitsValue (digits : Str) : Nat :=
  digits.foldl (fun value c => 10 * value + (c.toNat - 48)) 0

/-- The whole text is an optionally signed decimal integer, possibly after white space. -/
def Numeral (text : Str) (value : Int) : Prop :=
  ∃ blanks sign digits : Str, text = blanks ++ (sign ++ digits) ∧
    (∀ c ∈ blanks, isspace c = true) ∧ (sign = [] ∨ sign = [43] ∨ sign = [45]) ∧
    digits ≠ [] ∧ (∀ c ∈ digits, isdigit c = true) ∧
    value = if sign = [45] then -(digitsValue digits : Int) else digitsValue digits

/-- The text begins with an integer, whose last digit is followed by `rest`. -/
def Leading (text : Str) (value : Int) (rest : Str) : Prop :=
  ∃ numeral, text = numeral ++ rest ∧ Numeral numeral value ∧
    ∀ c ∈ rest.head?, isdigit c = false

theorem not_isspace_of_isdigit {c : UInt8} (digit : isdigit c = true) : isspace c = false := by
  simp only [isdigit, Bool.and_eq_true, decide_eq_true_eq, UInt8.le_iff_toNat_le] at digit
  simp only [isspace, Bool.or_eq_false_iff, beq_eq_false_iff_ne, Bool.and_eq_false_iff,
    decide_eq_false_iff_not, UInt8.le_iff_toNat_le, ne_eq, ← UInt8.toNat_inj]
  simp only [UInt8.reduceToNat] at *
  omega

section Spans
variable {α : Type*} {p : α → Bool} {body rest : List α}

theorem takeWhile_body (inside : ∀ value ∈ body, p value = true)
    (boundary : ∀ value ∈ rest.head?, p value = false) : (body ++ rest).takeWhile p = body := by
  rw [List.takeWhile_append_of_pos inside]
  cases rest with
  | nil => exact List.append_nil body
  | cons value tail =>
    have stop : ¬ p value = true := by simp [boundary value rfl]
    rw [List.takeWhile_cons_of_neg stop, List.append_nil]

theorem dropWhile_body (inside : ∀ value ∈ body, p value = true)
    (boundary : ∀ value ∈ rest.head?, p value = false) : (body ++ rest).dropWhile p = rest := by
  rw [List.dropWhile_append_of_pos inside]
  cases rest with
  | nil => rfl
  | cons value tail =>
    have stop : ¬ p value = true := by simp [boundary value rfl]
    exact List.dropWhile_cons_of_neg stop

theorem boundary_dropWhile (items : List α) :
    ∀ value ∈ (items.dropWhile p).head?, p value = false := by
  intro value head
  have stop := List.head?_dropWhile_not p items
  rwa [Option.mem_def.mp head] at stop

end Spans

/-- What follows the blanks, with the sign taken off. -/
def unsigned : Str → Int × Str
  | 45 :: tail => (-1, tail)
  | 43 :: tail => (1, tail)
  | tail => (1, tail)

theorem strtol_eq (text : Str) : strtol text =
    let body := unsigned (text.dropWhile isspace)
    if body.2.takeWhile isdigit = [] then none
    else some (body.1 * digitsValue (body.2.takeWhile isdigit)) := by
  rfl

theorem unsigned_of_digit {tail : Str} (digit : ∀ c ∈ tail.head?, isdigit c = true) :
    unsigned tail = (1, tail) := by
  unfold unsigned
  split
  · exact absurd (digit 45 rfl) (by decide)
  · exact absurd (digit 43 rfl) (by decide)
  · rfl

/-- The blanks, the sign and the digits of a text determine how it is read. -/
theorem reads_leading {text : Str} {value : Int} {rest : Str} (leading : Leading text value rest) :
    let body := unsigned (text.dropWhile isspace)
    strtol text = some value ∧ body.2.dropWhile isdigit = rest := by
  obtain ⟨numeral, rfl, ⟨blanks, sign, digits, rfl, blank, signs, some_, digit, rfl⟩, ends⟩ :=
    leading
  obtain ⟨first, more, rfl⟩ := List.exists_cons_of_ne_nil some_
  have shape : blanks ++ (sign ++ first :: more) ++ rest =
      blanks ++ (sign ++ (first :: more ++ rest)) := by
    simp only [List.append_assoc]
  have boundary : ∀ c ∈ (sign ++ (first :: more ++ rest)).head?, isspace c = false := by
    intro c head
    rcases signs with rfl | rfl | rfl
    · exact Option.some.inj head ▸ not_isspace_of_isdigit (digit first List.mem_cons_self)
    · exact Option.some.inj head ▸ rfl
    · exact Option.some.inj head ▸ rfl
  have taken := takeWhile_body digit ends
  have dropped := dropWhile_body digit ends
  rw [strtol_eq, shape, dropWhile_body blank boundary]
  rcases signs with rfl | rfl | rfl
  · have plain : unsigned ([] ++ (first :: more ++ rest)) = (1, first :: more ++ rest) :=
      unsigned_of_digit fun c head => Option.some.inj head ▸ digit first List.mem_cons_self
    rw [plain]
    dsimp only
    rw [taken, if_neg (List.cons_ne_nil _ _), Int.one_mul]
    exact ⟨rfl, dropped⟩
  · have plus : unsigned ([43] ++ (first :: more ++ rest)) = (1, first :: more ++ rest) := rfl
    rw [plus]
    dsimp only
    rw [taken, if_neg (List.cons_ne_nil _ _), Int.one_mul]
    exact ⟨rfl, dropped⟩
  · have minus : unsigned ([45] ++ (first :: more ++ rest)) = (-1, first :: more ++ rest) := rfl
    rw [minus]
    dsimp only
    rw [taken, if_neg (List.cons_ne_nil _ _), Int.neg_one_mul]
    exact ⟨rfl, dropped⟩

theorem unsigned_cases (body : Str) : ∃ sign : Str, body = sign ++ (unsigned body).2 ∧
    (sign = [] ∨ sign = [43] ∨ sign = [45]) ∧
    (unsigned body).1 = if sign = [45] then -1 else 1 := by
  unfold unsigned
  split
  · exact ⟨[45], rfl, .inr (.inr rfl), rfl⟩
  · exact ⟨[43], rfl, .inr (.inl rfl), rfl⟩
  · exact ⟨[], rfl, .inl rfl, rfl⟩

theorem leading_of_strtol {text : Str} {value : Int} (read : strtol text = some value) :
    ∃ rest, Leading text value rest := by
  rw [strtol_eq] at read
  obtain ⟨some_, same⟩ := Option.ite_none_left_eq_some.mp read
  obtain ⟨sign, follows, signs, factor⟩ := unsigned_cases (text.dropWhile isspace)
  generalize (unsigned (text.dropWhile isspace)).2 = body at *
  refine ⟨body.dropWhile isdigit, text.takeWhile isspace ++ (sign ++ body.takeWhile isdigit), ?_,
    ⟨text.takeWhile isspace, sign, body.takeWhile isdigit, rfl,
      fun c member => List.mem_takeWhile_imp member, signs, some_,
      fun c member => List.mem_takeWhile_imp member, ?_⟩, boundary_dropWhile body⟩
  · rw [List.append_assoc, List.append_assoc, List.takeWhile_append_dropWhile, ← follows,
      List.takeWhile_append_dropWhile]
  · rw [← Option.some.inj same, factor]
    split_ifs
    · exact Int.neg_one_mul _
    · exact Int.one_mul _

/-- The conversion finds the integer at the beginning of a text, if there is one. -/
theorem strtol_eq_some {text : Str} {value : Int} :
    strtol text = some value ↔ ∃ rest, Leading text value rest := by
  constructor
  · exact leading_of_strtol
  · rintro ⟨rest, leading⟩
    exact (reads_leading leading).1

theorem Leading.unique {text : Str} {value other : Int} {rest rest' : Str}
    (first : Leading text value rest) (second : Leading text other rest') :
    value = other ∧ rest = rest' := by
  obtain ⟨read, left⟩ := reads_leading first
  obtain ⟨again, left'⟩ := reads_leading second
  exact ⟨Option.some.inj (read.symm.trans again), left.symm.trans left'⟩

theorem Numeral.leading {text : Str} {value : Int} (numeral : Numeral text value) :
    Leading text value [] :=
  ⟨text, (List.append_nil text).symm, numeral, fun _ none => by cases none⟩

theorem Leading.numeral {text : Str} {value : Int} (leading : Leading text value []) :
    Numeral text value := by
  obtain ⟨numeral, same, whole, _⟩ := leading
  rwa [List.append_nil, ← same] at *

/-- Decimal renderings are read back. -/
theorem numeral_toDecimal (value : Int) : Numeral (toDecimal value) value := by
  let digits := (Nat.toDigits 10 value.natAbs).map fun c => UInt8.ofNat c.toNat
  have code : ∀ c ∈ Nat.toDigits 10 value.natAbs, (UInt8.ofNat c.toNat).toNat = c.toNat := by
    intro c member
    have bounds := toDigits_code member
    rw [UInt8.toNat_ofNat']
    omega
  have number : digitsValue digits = value.natAbs := by
    have read := Nat.ofDigitChars_ten_toDigits (n := value.natAbs)
    rw [Nat.ofDigitChars_eq_foldl] at read
    refine Eq.trans ?_ read
    rw [digitsValue, List.foldl_map]
    exact List.foldl_ext _ _ _ fun _ c member => by rw [code c member]; rfl
  have digit : ∀ c ∈ digits, isdigit c = true := by
    intro c listed
    obtain ⟨d, member, rfl⟩ := List.mem_map.mp listed
    have bounds := toDigits_code member
    have same := code d member
    simp only [isdigit, Bool.and_eq_true, decide_eq_true_eq, UInt8.le_iff_toNat_le, same]
    exact bounds
  have some_ : digits ≠ [] := fun none => Nat.toDigits_ne_nil (List.map_eq_nil_iff.mp none)
  unfold toDecimal
  split
  · refine ⟨[], [45], digits, rfl, by simp, .inr (.inr rfl), some_, digit, ?_⟩
    rw [if_pos rfl, number]
    omega
  · refine ⟨[], [], digits, rfl, by simp, .inl rfl, some_, digit, ?_⟩
    rw [if_neg (by decide), number]
    omega

end SocketMessaging
