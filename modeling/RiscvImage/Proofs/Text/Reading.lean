import RiscvImage.Proofs.Text.Address

/-!
# Every hexadecimal address is read

A run of hexadecimal digits is an address as it stands, with either marker in front, and
between blanks.  The markers are told from the digits by their letter, which is no digit, so
no zero of the digits is ever taken for the beginning of a marker.  A run of digits whose
number is beyond the address space is turned down for that reason, however many zeros it
begins with.

In particular an address is found again in whatever way its digits are shown.
-/

namespace RiscvImage

namespace Numeral

variable {radix bound : Nat}

/-- A run of digits stands for one number only. -/
theorem Denotes.unique {digits : List Char} {number other : Nat}
    (first : Denotes radix digits number) (second : Denotes radix digits other) :
    number = other := by
  obtain ⟨values, shown, -, rfl⟩ := first
  obtain ⟨others, alsoShown, -, rfl⟩ := second
  have same : values = others :=
    (List.map_inj_right fun _ _ => Option.some.inj).mp (shown.symm.trans alsoShown)
  rw [same]

/-- Every run of digits stands for a number. -/
theorem exists_denotes {digits : List Char}
    (valid : ∀ digit ∈ digits, ∃ value < radix, Hexadecimal.digitValue? digit = some value) :
    ∃ number, Denotes radix digits number := by
  induction digits with
  | nil => exact ⟨0, denotes_nil_iff.mpr rfl⟩
  | cons digit rest ih =>
      obtain ⟨⟨value, small, found⟩, others⟩ := List.forall_mem_cons.mp valid
      obtain ⟨number, denotes⟩ := ih others
      exact ⟨_, denotes_cons_iff.mpr ⟨value, number, found, small, denotes, rfl⟩⟩

/-- A further digit moves the others up by one place. -/
theorem Denotes.concat {digits : List Char} {number : Nat} (denotes : Denotes radix digits number)
    {digit : Char} {value : Nat} (found : Hexadecimal.digitValue? digit = some value)
    (small : value < radix) : Denotes radix (digits ++ [digit]) (number * radix + value) := by
  obtain ⟨values, shown, valid, rfl⟩ := denotes
  refine ⟨values ++ [value], ?_, ?_, ?_⟩
  · rw [List.map_append, List.map_append, shown, List.map_singleton, List.map_singleton, found]
  · intro other member
    rcases List.mem_append.mp member with earlier | last
    · exact valid other earlier
    · exact List.mem_singleton.mp last ▸ small
  · rw [List.reverse_append, List.reverse_singleton, List.singleton_append, Nat.ofDigits_cons,
      Nat.mul_comm, Nat.add_comm]

/-- Zeros in front do not count. -/
theorem Denotes.zeros_append {digits : List Char} {number : Nat}
    (denotes : Denotes radix digits number) (positive : 0 < radix) (zeros : Nat) :
    Denotes radix (List.replicate zeros '0' ++ digits) number := by
  induction zeros with
  | zero => exact denotes
  | succ zeros ih =>
      rw [List.replicate_succ, List.cons_append]
      refine denotes_cons_iff.mpr ⟨0, number, rfl, positive, ih, ?_⟩
      rw [Nat.zero_mul, Nat.zero_add]

/-- No digit of a run is called invalid: only the bound can stand in the way. -/
theorem Denotes.readDigits {digits : List Char} {shown : Nat}
    (denotes : Denotes radix digits shown) (bound : Nat) (beyond : NumeralError) (start : Nat) :
    (∃ number, readDigits radix bound beyond start digits = .ok number) ∨
      readDigits radix bound beyond start digits = .error beyond := by
  induction digits generalizing start shown with
  | nil => exact .inl ⟨start, rfl⟩
  | cons digit rest ih =>
      obtain ⟨value, others, found, valid, denotesRest, -⟩ := denotes_cons_iff.mp denotes
      simp only [Numeral.readDigits, found, Nat.not_le_of_lt valid, if_false]
      split
      case isTrue exceeds => exact .inr rfl
      case isFalse within => exact ih denotesRest _

/-- A run of digits is read as the number that it stands for, unless this is too large. -/
theorem Denotes.read {digits : List Char} {number : Nat} (denotes : Denotes radix digits number)
    (notEmpty : digits ≠ []) (bound : Nat) :
    read radix bound digits = if number ≤ bound then .ok number else .error .tooLarge := by
  split
  case isTrue small =>
    exact read_eq_ok_iff.mpr ⟨small, [], digits, .inl rfl, notEmpty, rfl, denotes⟩
  case isFalse large =>
    have unsigned : '+' ∉ digits := by
      intro member
      obtain ⟨value, found⟩ := denotes.exists_digitValue? member
      contradiction
    rw [read_of_digits notEmpty unsigned]
    rcases denotes.readDigits bound .tooLarge 0 with ⟨other, success⟩ | failure
    · obtain ⟨small, shown, alsoDenotes, total⟩ :=
        (readDigits_eq_ok_iff (Nat.zero_le bound)).mp success
      rw [Nat.zero_mul, Nat.zero_add, ← denotes.unique alsoDenotes] at total
      exact absurd (total ▸ small) large
    · exact failure

end Numeral

namespace Hexadecimal

/-- One of the digits from 0 to 9, or one of the letters from a to f in either case. -/
def IsDigit (character : Char) : Prop :=
  ('0' ≤ character ∧ character ≤ '9') ∨ ('a' ≤ character ∧ character ≤ 'f') ∨
    ('A' ≤ character ∧ character ≤ 'F')

instance (character : Char) : Decidable (IsDigit character) :=
  inferInstanceAs (Decidable (_ ∨ _))

/-- A number is shown by its digits, all in lower or all in upper case, with as many zeros in
front as one likes. -/
def Shows (shown : List Char) (number : Nat) : Prop :=
  ∃ zeros, shown = List.replicate zeros '0' ++ digits number ∨
    shown = List.replicate zeros '0' ++ (digits number).map Char.toUpper

theorem IsDigit.exists_digitValue? {character : Char} (digit : IsDigit character) :
    ∃ value < 16, digitValue? character = some value := by
  simp only [IsDigit, digitValue?, le_iff_toNat_le, Char.reduceToNat] at digit ⊢
  split
  · exact ⟨_, by omega, rfl⟩
  split
  · exact ⟨_, by omega, rfl⟩
  · rw [if_pos (by omega)]
    exact ⟨_, by omega, rfl⟩

theorem digitValue?_digitChar {value : Nat} (small : value < 16) :
    digitValue? value.digitChar = some value := by
  revert value
  decide

theorem digitValue?_toUpper_digitChar {value : Nat} (small : value < 16) :
    digitValue? value.digitChar.toUpper = some value := by
  revert value
  decide

/-- The digits of a number stand for it in either case. -/
theorem denotes_map_digits (case : Char → Char)
    (reads : ∀ {value : Nat}, value < 16 → digitValue? (case value.digitChar) = some value)
    (number : Nat) : Numeral.Denotes 16 ((digits number).map case) number := by
  induction number using Nat.strongRecOn with
  | ind number ih =>
      rw [digits, Nat.toDigits_eq_if (by decide)]
      split
      case isTrue single =>
        have last := (Numeral.denotes_nil_iff.mpr rfl).concat (reads single) single
        rwa [Nat.zero_mul, Nat.zero_add] at last
      case isFalse more =>
        have small : number % 16 < 16 := Nat.mod_lt _ (by decide)
        have front := (ih (number / 16) (by omega)).concat (reads small) small
        rw [Nat.div_add_mod'] at front
        rwa [List.map_append]

theorem Shows.denotes {shown : List Char} {number : Nat} (shows : Shows shown number) :
    Numeral.Denotes 16 shown number := by
  obtain ⟨zeros, rfl | rfl⟩ := shows
  · have lower := denotes_map_digits id digitValue?_digitChar number
    rw [List.map_id] at lower
    exact lower.zeros_append (by decide) zeros
  · have upper := denotes_map_digits Char.toUpper digitValue?_toUpper_digitChar number
    exact upper.zeros_append (by decide) zeros

theorem Shows.ne_nil {shown : List Char} {number : Nat} (shows : Shows shown number) :
    shown ≠ [] := by
  obtain ⟨zeros, rfl | rfl⟩ := shows
  · exact List.append_ne_nil_of_right_ne_nil _ Nat.toDigits_ne_nil
  · exact List.append_ne_nil_of_right_ne_nil _ (mt List.map_eq_nil_iff.mp Nat.toDigits_ne_nil)

end Hexadecimal

namespace Address

/-- One marker in either case, or none. -/
def IsMarker (marker : List Char) : Prop :=
  marker = [] ∨ marker = ['0', 'x'] ∨ marker = ['0', 'X']

/-- A text that consists of these characters, of one marker or none in front of them, and of
nothing but blanks around. -/
def Carries (text : String) (characters : List Char) : Prop :=
  ∃ before marker after, text.toList = before ++ (marker ++ characters) ++ after ∧
    IsMarker marker ∧ (∀ character ∈ before, Blank.isBlank character) ∧
    ∀ character ∈ after, Blank.isBlank character

/-- A number is shown behind the lower-case marker wherever it is written. -/
theorem exists_carries_padded (width number : Nat) :
    ∃ shown, Carries (Hexadecimal.padded width number) shown ∧ Hexadecimal.Shows shown number :=
  ⟨_, ⟨[], ['0', 'x'], [], by simp [Hexadecimal.padded], .inr (.inl rfl), nofun, nofun⟩,
    width - (Hexadecimal.digits number).length, .inl rfl⟩

theorem IsMarker.exists_markers {marker : List Char} (isMarker : IsMarker marker) :
    ∃ lower upper, marker = markers 'x' lower ++ markers 'X' upper := by
  rcases isMarker with rfl | rfl | rfl
  · exact ⟨0, 0, rfl⟩
  · exact ⟨1, 0, rfl⟩
  · exact ⟨0, 1, rfl⟩

/-- What is left of a text is the run of digits that it carries, with all its zeros. -/
theorem Carries.numeral_eq {text : String} {digits : List Char} {number : Nat}
    (carries : Carries text digits) (notEmpty : digits ≠ [])
    (denotes : Numeral.Denotes 16 digits number) : numeral text = digits := by
  obtain ⟨before, marker, after, parts, isMarker, blankBefore, blankAfter⟩ := carries
  obtain ⟨lower, upper, rfl⟩ := isMarker.exists_markers
  rw [List.append_assoc (markers 'x' lower)] at parts
  exact numeral_eq_of_parts parts blankBefore blankAfter notEmpty fun character member =>
    Numeral.isMark_of_mem (.inl rfl) denotes member

theorem Carries.ofText_eq {text : String} {digits : List Char} {number : Nat}
    (carries : Carries text digits) (notEmpty : digits ≠ [])
    (denotes : Numeral.Denotes 16 digits number) :
    ofText text =
      if number < UInt32.size then .ok (.ofNat number) else .error (message text .tooLarge) := by
  rw [ofText, Address.read, carries.numeral_eq notEmpty denotes, denotes.read notEmpty]
  by_cases small : number < UInt32.size
  · rw [if_pos small, if_pos (Nat.le_of_lt_succ small)]
    rfl
  · rw [if_neg small, if_neg fun within => small (Nat.lt_succ_of_le within)]
    rfl

/-- A text with any run of hexadecimal digits is read as the number that they stand for, or
refused if this is no address; and an address that is shown is read as what it is. -/
theorem ofText_of_carries {text : String} {digits : List Char} (carries : Carries text digits) :
    (digits ≠ [] → (∀ digit ∈ digits, Hexadecimal.IsDigit digit) →
      ∃ number, Numeral.Denotes 16 digits number ∧
        ofText text =
          if number < UInt32.size then .ok (.ofNat number)
          else .error (message text .tooLarge)) ∧
    ∀ address : UInt32, Hexadecimal.Shows digits address.toNat → ofText text = .ok address := by
  constructor
  · intro notEmpty valid
    obtain ⟨number, denotes⟩ :=
      Numeral.exists_denotes fun digit member => (valid digit member).exists_digitValue?
    exact ⟨number, denotes, carries.ofText_eq notEmpty denotes⟩
  · intro address shows
    rw [carries.ofText_eq shows.ne_nil shows.denotes, if_pos address.toNat_lt,
      UInt32.ofNat_toNat]

/-- Blanks, the other marker and both cases at once, and an address as it is written. -/
theorem ofText_of_carries_samples :
    Carries "\t0X0fF " "0fF".toList ∧
      (∀ digit ∈ "0fF".toList, Hexadecimal.IsDigit digit) ∧
      (∃ number, Numeral.Denotes 16 "0fF".toList number ∧
        ofText "\t0X0fF " =
          if number < UInt32.size then .ok (.ofNat number)
          else .error (message "\t0X0fF " .tooLarge)) ∧
      ofText (Hexadecimal.address 0x80000000) = .ok 0x80000000 := by
  have carries : Carries "\t0X0fF " "0fF".toList :=
    ⟨['\t'], ['0', 'X'], [' '], rfl, .inr (.inr rfl), List.forall_mem_singleton.mpr rfl,
      List.forall_mem_singleton.mpr rfl⟩
  have valid : ∀ digit ∈ ['0', 'f', 'F'], Hexadecimal.IsDigit digit :=
    List.forall_mem_cons.mpr ⟨by decide, List.forall_mem_cons.mpr
      ⟨by decide, List.forall_mem_singleton.mpr (by decide)⟩⟩
  obtain ⟨shown, written, shows⟩ := exists_carries_padded 8 0x80000000
  exact ⟨carries, valid, (ofText_of_carries carries).1 (by decide) valid,
    (ofText_of_carries written).2 0x80000000 shows⟩

end Address

end RiscvImage
