import Mathlib.Data.Nat.Digits.Defs
import RiscvImage.Text.Numeral

/-!
# What numerals stand for

A run of digits denotes a number by the places of its digits.  A numeral is read exactly
if it is such a run, with or without a plus sign in front, and the number is within the
bound: what is read before the last digit never exceeds it.
-/

namespace RiscvImage

namespace Hexadecimal

/-- Characters are in the order of their code points. -/
theorem le_iff_toNat_le {first last : Char} : first ≤ last ↔ first.toNat ≤ last.toNat :=
  Iff.rfl

/-- Digits are found between the zero and the small letter f. -/
theorem toNat_of_digitValue? {digit : Char} {value : Nat} (found : digitValue? digit = some value) :
    '0'.toNat ≤ digit.toNat ∧ digit.toNat ≤ 'f'.toNat := by
  simp only [digitValue?, le_iff_toNat_le, Char.reduceToNat] at found ⊢
  split at found
  · omega
  split at found
  · omega
  split at found
  · omega
  · nomatch found

end Hexadecimal

namespace Numeral

/-- A run of digits in base `radix`, the most significant one first, and the number that it
stands for. -/
def Denotes (radix : Nat) (digits : List Char) (number : Nat) : Prop :=
  ∃ values : List Nat, digits.map Hexadecimal.digitValue? = values.map some ∧
    (∀ value ∈ values, value < radix) ∧ number = Nat.ofDigits radix values.reverse

variable {radix bound : Nat}

theorem denotes_nil_iff {number : Nat} : Denotes radix [] number ↔ number = 0 := by
  constructor
  · rintro ⟨values, shown, -, rfl⟩
    rw [List.map_nil, eq_comm, List.map_eq_nil_iff] at shown
    subst shown
    rfl
  · rintro rfl
    exact ⟨[], rfl, by simp, rfl⟩

/-- The first digit counts by the number of those that follow. -/
theorem denotes_cons_iff {digit : Char} {rest : List Char} {number : Nat} :
    Denotes radix (digit :: rest) number ↔
      ∃ value shown, Hexadecimal.digitValue? digit = some value ∧ value < radix ∧
        Denotes radix rest shown ∧ number = value * radix ^ rest.length + shown := by
  have weight {values : List Nat} (same : rest.map Hexadecimal.digitValue? = values.map some)
      (value : Nat) : Nat.ofDigits radix (value :: values).reverse =
        value * radix ^ rest.length + Nat.ofDigits radix values.reverse := by
    have length : rest.length = values.length := by simpa using congrArg List.length same
    rw [List.reverse_cons, Nat.ofDigits_append, Nat.ofDigits_singleton, List.length_reverse,
      length, Nat.mul_comm, Nat.add_comm]
  constructor
  · rintro ⟨values, shown, small, rfl⟩
    cases values with
    | nil => contradiction
    | cons value values =>
        obtain ⟨first, others⟩ := List.cons.inj shown
        exact ⟨value, _, first, small value List.mem_cons_self,
          ⟨values, others, fun other member => small other (List.mem_cons_of_mem _ member), rfl⟩,
          weight others value⟩
  · rintro ⟨value, _, first, valid, ⟨values, others, small, rfl⟩, rfl⟩
    refine ⟨value :: values, ?_, ?_, (weight others value).symm⟩
    · rw [List.map_cons, List.map_cons, first, others]
    · exact List.forall_mem_cons.mpr ⟨valid, small⟩

/-- Every character of a run of digits is one. -/
theorem Denotes.exists_digitValue? {digits : List Char} {number : Nat}
    (denotes : Denotes radix digits number) {character : Char} (member : character ∈ digits) :
    ∃ value, Hexadecimal.digitValue? character = some value := by
  obtain ⟨values, shown, -, -⟩ := denotes
  have found := List.mem_map_of_mem (f := Hexadecimal.digitValue?) member
  rw [shown] at found
  obtain ⟨value, -, same⟩ := List.mem_map.mp found
  exact ⟨value, same.symm⟩

theorem readDigits_cons_eq_ok_iff {beyond : NumeralError} {start number : Nat} {digit : Char}
    {rest : List Char} :
    readDigits radix bound beyond start (digit :: rest) = .ok number ↔
      ∃ value, Hexadecimal.digitValue? digit = some value ∧ value < radix ∧
        start * radix + value ≤ bound ∧
        readDigits radix bound beyond (start * radix + value) rest = .ok number := by
  rw [readDigits]
  cases Hexadecimal.digitValue? digit with
  | none => simp
  | some value =>
      by_cases valid : value < radix
      · by_cases within : start * radix + value ≤ bound
        · simp [valid, within, Nat.not_le_of_lt valid, Nat.not_lt_of_le within]
        · simp [within, Nat.not_le_of_lt valid, Nat.lt_of_not_le within]
      · simp [valid, Nat.le_of_not_lt valid]

/-- Digits extend a number, and no step on the way exceeds a bound that the result is
within. -/
theorem readDigits_eq_ok_iff {beyond : NumeralError} {start number : Nat} {text : List Char}
    (within : start ≤ bound) :
    readDigits radix bound beyond start text = .ok number ↔
      number ≤ bound ∧ ∃ shown, Denotes radix text shown ∧
        number = start * radix ^ text.length + shown := by
  induction text generalizing start with
  | nil =>
      simp only [readDigits, Except.ok.injEq, denotes_nil_iff, List.length_nil, Nat.pow_zero,
        Nat.mul_one, exists_eq_left, Nat.add_zero]
      constructor
      · rintro rfl
        exact ⟨within, rfl⟩
      · rintro ⟨-, rfl⟩
        rfl
  | cons digit rest ih =>
      have regrouped (value shown : Nat) :
          (start * radix + value) * radix ^ rest.length + shown =
            start * radix ^ (digit :: rest).length + (value * radix ^ rest.length + shown) := by
        rw [List.length_cons, Nat.pow_succ, Nat.add_mul, Nat.mul_assoc, Nat.mul_comm radix,
          Nat.add_assoc]
      rw [readDigits_cons_eq_ok_iff]
      constructor
      · rintro ⟨value, found, valid, next, read⟩
        obtain ⟨small, shown, denotes, rfl⟩ := (ih next).mp read
        exact ⟨small, _, denotes_cons_iff.mpr ⟨value, shown, found, valid, denotes, rfl⟩,
          regrouped value shown⟩
      · rintro ⟨small, _, denotes, total⟩
        obtain ⟨value, shown, found, valid, others, rfl⟩ := denotes_cons_iff.mp denotes
        rw [← regrouped] at total
        have weight : 0 < radix ^ rest.length := Nat.pow_pos (Nat.zero_lt_of_lt valid)
        have next : start * radix + value ≤ bound :=
          calc
            start * radix + value ≤ (start * radix + value) * radix ^ rest.length :=
              Nat.le_mul_of_pos_right _ weight
            _ ≤ number := total ▸ Nat.le_add_right _ _
            _ ≤ bound := small
        exact ⟨value, found, valid, next, (ih next).mpr ⟨small, shown, others, total⟩⟩

/-- A plus sign or none. -/
def IsSign (sign : List Char) : Prop :=
  sign = [] ∨ sign = ['+']

/-- A character that can stand in a numeral: a plus sign or a digit. -/
def IsMark (character : Char) : Prop :=
  character = '+' ∨ ∃ value, Hexadecimal.digitValue? character = some value

theorem not_isMark {character : Char} (noSign : character ≠ '+')
    (noDigit : Hexadecimal.digitValue? character = none) : ¬ IsMark character := by
  rintro (plus | ⟨value, found⟩)
  · exact noSign plus
  · rw [noDigit] at found
    contradiction

theorem isMark_of_mem {sign digits : List Char} {number : Nat} (signed : IsSign sign)
    (denotes : Denotes radix digits number) {character : Char}
    (member : character ∈ sign ++ digits) : IsMark character := by
  rcases List.mem_append.mp member with member | member
  · rcases signed with rfl | rfl
    · contradiction
    · exact .inl (List.mem_singleton.mp member)
  · exact .inr (denotes.exists_digitValue? member)

theorem read_plus {digits : List Char} (notEmpty : digits ≠ []) :
    read radix bound ('+' :: digits) = readDigits radix bound .tooLarge 0 digits := by
  cases digits with
  | nil => contradiction
  | cons digit rest => rfl

theorem read_of_digits {digits : List Char} (notEmpty : digits ≠ []) (unsigned : '+' ∉ digits) :
    read radix bound digits = readDigits radix bound .tooLarge 0 digits := by
  unfold read
  split
  · contradiction
  · exact absurd List.mem_cons_self unsigned
  · exact absurd List.mem_cons_self unsigned
  · rfl

/-- A numeral is a run of digits that may have a plus sign in front. -/
theorem read_eq_ok_iff {text : List Char} {number : Nat} :
    read radix bound text = .ok number ↔
      number ≤ bound ∧ ∃ sign digits, IsSign sign ∧ digits ≠ [] ∧ text = sign ++ digits ∧
        Denotes radix digits number := by
  have digitsRead {digits : List Char} :
      readDigits radix bound .tooLarge 0 digits = .ok number ↔
        number ≤ bound ∧ Denotes radix digits number := by
    rw [readDigits_eq_ok_iff (Nat.zero_le bound)]
    simp
  have noDigit : Hexadecimal.digitValue? '+' = none := rfl
  constructor
  · intro result
    unfold read at result
    split at result
    · contradiction
    · contradiction
    · next rest notAlone =>
        obtain ⟨small, denotes⟩ := digitsRead.mp result
        exact ⟨small, ['+'], rest, .inr rfl, notAlone, rfl, denotes⟩
    · next notEmpty _ _ =>
        obtain ⟨small, denotes⟩ := digitsRead.mp result
        exact ⟨small, [], text, .inl rfl, notEmpty, rfl, denotes⟩
  · rintro ⟨small, _, _, rfl | rfl, notEmpty, rfl, denotes⟩
    · rw [read_of_digits notEmpty ?unsigned]
      · exact digitsRead.mpr ⟨small, denotes⟩
      case unsigned =>
        intro member
        obtain ⟨value, found⟩ := denotes.exists_digitValue? member
        rw [noDigit] at found
        contradiction
    · rw [List.singleton_append, read_plus notEmpty]
      exact digitsRead.mpr ⟨small, denotes⟩

end Numeral

end RiscvImage
