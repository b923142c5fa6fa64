import RiscvImage.Address
import RiscvImage.Proofs.Text.Numeral

/-!
# Which texts are addresses

An address is read from a run of hexadecimal digits between blanks.  What may stand in front
of the digits is more than one `0x`: any number of `0x` and after them any number of `0X` is
dropped, and the numeral that is left may have a plus sign.
-/

namespace RiscvImage

namespace Blank

/-- Nothing in a numeral is blank. -/
theorem isBlank_of_isMark {character : Char} (mark : Numeral.IsMark character) :
    isBlank character = false := by
  rcases mark with rfl | ⟨value, found⟩
  · rfl
  · have code := Hexadecimal.toNat_of_digitValue? found
    simp only [Char.reduceToNat] at code
    simp only [isBlank, ranges, List.any_cons, List.any_nil, Bool.or_false, Bool.or_eq_false_iff,
      Bool.and_eq_false_iff, decide_eq_false_iff_not]
    omega

/-- Trimming takes blanks only. -/
theorem exists_eq_trim (text : List Char) :
    ∃ before after, text = before ++ trim text ++ after ∧
      (∀ character ∈ before, isBlank character) ∧ ∀ character ∈ after, isBlank character := by
  refine ⟨text.takeWhile isBlank, ((text.dropWhile isBlank).reverse.takeWhile isBlank).reverse,
    ?_, ?_, ?_⟩
  · rw [trim, List.append_assoc, ← List.reverse_append, List.takeWhile_append_dropWhile,
      List.reverse_reverse, List.takeWhile_append_dropWhile]
  · exact fun character member => List.all_eq_true.mp List.all_takeWhile _ member
  · exact fun character member =>
      List.all_eq_true.mp List.all_takeWhile _ (List.mem_reverse.mp member)

theorem dropWhile_append_of_solid {middle : List Char} (notEmpty : middle ≠ [])
    (solid : ∀ character ∈ middle, isBlank character = false) (rest : List Char) :
    (middle ++ rest).dropWhile isBlank = middle ++ rest := by
  cases middle with
  | nil => contradiction
  | cons first others =>
      apply List.dropWhile_cons_of_neg
      rw [solid first List.mem_cons_self]
      exact Bool.false_ne_true

/-- Text without blanks is found between them. -/
theorem trim_append {before middle after : List Char}
    (blankBefore : ∀ character ∈ before, isBlank character)
    (blankAfter : ∀ character ∈ after, isBlank character) (notEmpty : middle ≠ [])
    (solid : ∀ character ∈ middle, isBlank character = false) :
    trim (before ++ middle ++ after) = middle := by
  have blankBack : ∀ character ∈ after.reverse, isBlank character :=
    fun character member => blankAfter character (List.mem_reverse.mp member)
  have solidBack : ∀ character ∈ middle.reverse, isBlank character = false :=
    fun character member => solid character (List.mem_reverse.mp member)
  have back := dropWhile_append_of_solid (mt List.reverse_eq_nil_iff.mp notEmpty) solidBack []
  rw [List.append_nil] at back
  rw [trim, List.append_assoc, List.dropWhile_append_of_pos blankBefore,
    dropWhile_append_of_solid notEmpty solid, List.reverse_append,
    List.dropWhile_append_of_pos blankBack, back, List.reverse_reverse]

end Blank

namespace Address

/-- So many zeros, each with the marker behind it. -/
def markers (marker : Char) (count : Nat) : List Char :=
  (List.replicate count ['0', marker]).flatten

/-- A text that spells an address, with so many markers in lower and in upper case and this
sign in front of the digits, and with nothing but blanks around it. -/
def Spells (lower upper : Nat) (sign : List Char) (text : String) (value : UInt32) : Prop :=
  ∃ before digits after : List Char,
    text.toList =
      before ++ (markers 'x' lower ++ (markers 'X' upper ++ (sign ++ digits))) ++ after ∧
    (∀ character ∈ before, Blank.isBlank character) ∧
    (∀ character ∈ after, Blank.isBlank character) ∧
    digits ≠ [] ∧ Numeral.Denotes 16 digits value.toNat

theorem markers_succ (marker : Char) (count : Nat) :
    markers marker (count + 1) = '0' :: marker :: markers marker count :=
  rfl

theorem eq_of_mem_markers {marker character : Char} {count : Nat}
    (member : character ∈ markers marker count) : character = '0' ∨ character = marker := by
  obtain ⟨_, found, here⟩ := List.mem_flatten.mp member
  rw [(List.mem_replicate.mp found).2] at here
  simpa using here

/-- Leading markers are dropped, and nothing else is. -/
theorem exists_eq_dropMarkers (marker : Char) (text : List Char) :
    ∃ count, text = markers marker count ++ dropMarkers marker text := by
  fun_induction dropMarkers marker text with
  | case1 rest ih =>
      obtain ⟨count, parts⟩ := ih
      refine ⟨count + 1, ?_⟩
      rw [markers_succ, List.cons_append, List.cons_append, ← parts]
  | case2 character rest other => exact ⟨0, rfl⟩
  | case3 text other => exact ⟨0, rfl⟩

theorem dropMarkers_append (marker : Char) (count : Nat) (rest : List Char) :
    dropMarkers marker (markers marker count ++ rest) = dropMarkers marker rest := by
  induction count with
  | zero => rfl
  | succ count ih =>
      rw [markers_succ, List.cons_append, List.cons_append, dropMarkers, if_pos rfl, ih]

theorem dropMarkers_of_not_mem {marker : Char} {text : List Char} (absent : marker ∉ text) :
    dropMarkers marker text = text := by
  fun_cases dropMarkers marker text with
  | case1 rest => exact absurd (List.mem_cons_of_mem _ List.mem_cons_self) absent
  | case2 character rest other => rfl
  | case3 => rfl

theorem isBlank_of_mem_markers {marker character : Char} {count : Nat}
    (visible : Blank.isBlank marker = false) (member : character ∈ markers marker count) :
    Blank.isBlank character = false := by
  rcases eq_of_mem_markers member with rfl | rfl
  · rfl
  · exact visible

theorem not_mem_markers {marker other : Char} (count : Nat) (noZero : other ≠ '0')
    (different : other ≠ marker) : other ∉ markers marker count := by
  intro member
  rcases eq_of_mem_markers member with zero | same
  · exact noZero zero
  · exact different same

theorem not_isMark_lower : ¬ Numeral.IsMark 'x' :=
  Numeral.not_isMark (by decide) rfl

theorem not_isMark_upper : ¬ Numeral.IsMark 'X' :=
  Numeral.not_isMark (by decide) rfl

/-- Nothing but the markers and the blanks is taken away from a numeral. -/
theorem numeral_eq_of_parts {text : String} {before rest after : List Char} {lower upper : Nat}
    (parts : text.toList = before ++ (markers 'x' lower ++ (markers 'X' upper ++ rest)) ++ after)
    (blankBefore : ∀ character ∈ before, Blank.isBlank character)
    (blankAfter : ∀ character ∈ after, Blank.isBlank character) (notEmpty : rest ≠ [])
    (marks : ∀ character ∈ rest, Numeral.IsMark character) : numeral text = rest := by
  have trimmed : Blank.trim text.toList = markers 'x' lower ++ (markers 'X' upper ++ rest) := by
    rw [parts]
    apply Blank.trim_append blankBefore blankAfter
    · simp [notEmpty]
    · intro character member
      rcases List.mem_append.mp member with member | member
      · exact isBlank_of_mem_markers rfl member
      rcases List.mem_append.mp member with member | member
      · exact isBlank_of_mem_markers rfl member
      · exact Blank.isBlank_of_isMark (marks character member)
  have noLower : 'x' ∉ markers 'X' upper ++ rest := by
    intro member
    rcases List.mem_append.mp member with member | member
    · exact not_mem_markers upper (by decide) (by decide) member
    · exact not_isMark_lower (marks 'x' member)
  have noUpper : 'X' ∉ rest := fun member => not_isMark_upper (marks 'X' member)
  rw [numeral, trimmed, dropMarkers_append, dropMarkers_of_not_mem noLower, dropMarkers_append,
    dropMarkers_of_not_mem noUpper]

theorem exists_parts (text : String) :
    ∃ before after lower upper,
      text.toList =
        before ++ (markers 'x' lower ++ (markers 'X' upper ++ numeral text)) ++ after ∧
      (∀ character ∈ before, Blank.isBlank character) ∧
      ∀ character ∈ after, Blank.isBlank character := by
  obtain ⟨before, after, trimmed, blankBefore, blankAfter⟩ := Blank.exists_eq_trim text.toList
  obtain ⟨lower, first⟩ := exists_eq_dropMarkers 'x' (Blank.trim text.toList)
  obtain ⟨upper, second⟩ :=
    exists_eq_dropMarkers 'X' (dropMarkers 'x' (Blank.trim text.toList))
  refine ⟨before, after, lower, upper, ?_, blankBefore, blankAfter⟩
  rw [numeral, ← second, ← first, ← trimmed]

theorem ofText_eq_ok_iff_read {text : String} {value : UInt32} :
    ofText text = .ok value ↔ Numeral.read 16 0xffffffff (numeral text) = .ok value.toNat := by
  rw [ofText, read]
  cases found : Numeral.read 16 0xffffffff (numeral text) with
  | error reason => simp [Except.map, Except.mapError]
  | ok number =>
      have small := (Numeral.read_eq_ok_iff.mp found).1
      simp only [Except.map, Except.mapError, Except.ok.injEq]
      constructor
      · rintro rfl
        exact (UInt32.toNat_ofNat_of_lt (Nat.lt_succ_of_le small)).symm
      · rintro rfl
        exact UInt32.ofNat_toNat

theorem count_markers (marker : Char) (noZero : marker ≠ '0') (count : Nat) :
    (markers marker count).count marker = count := by
  induction count with
  | zero => rfl
  | succ count ih =>
      rw [markers_succ, List.count_cons_of_ne noZero.symm, List.count_cons_self, ih]

/-- The lower-case markers of an address can be counted in its text. -/
theorem Spells.count_eq {lower upper : Nat} {sign : List Char} {text : String} {value : UInt32}
    (signed : Numeral.IsSign sign) (spells : Spells lower upper sign text value) :
    text.toList.count 'x' = lower := by
  obtain ⟨before, digits, after, parts, blankBefore, blankAfter, -, denotes⟩ := spells
  have noBlank {blanks : List Char} (blank : ∀ character ∈ blanks, Blank.isBlank character) :
      blanks.count 'x' = 0 :=
    List.count_eq_zero.mpr fun member => absurd (blank 'x' member) Bool.false_ne_true
  have noMark : (sign ++ digits).count 'x' = 0 :=
    List.count_eq_zero.mpr fun member =>
      not_isMark_lower (Numeral.isMark_of_mem signed denotes member)
  have noUpper : (markers 'X' upper).count 'x' = 0 :=
    List.count_eq_zero.mpr (not_mem_markers upper (by decide) (by decide))
  rw [parts, List.count_append, List.count_append, List.count_append, List.count_append,
    noBlank blankBefore, noBlank blankAfter, noUpper, noMark, count_markers 'x' (by decide),
    Nat.zero_add]
  exact Nat.add_zero lower

/-- A text is an address exactly if it spells one. -/
theorem ofText_eq_ok_iff (text : String) (value : UInt32) :
    ofText text = .ok value ↔
      ∃ lower upper sign, Numeral.IsSign sign ∧ Spells lower upper sign text value := by
  rw [ofText_eq_ok_iff_read, Numeral.read_eq_ok_iff]
  constructor
  · rintro ⟨-, sign, digits, signed, notEmpty, parts, denotes⟩
    obtain ⟨before, after, lower, upper, whole, blankBefore, blankAfter⟩ := exists_parts text
    rw [parts] at whole
    exact ⟨lower, upper, sign, signed, before, digits, after, whole, blankBefore, blankAfter,
      notEmpty, denotes⟩
  · rintro ⟨lower, upper, sign, signed, before, digits, after, whole, blankBefore, blankAfter,
      notEmpty, denotes⟩
    have some : sign ++ digits ≠ [] := List.append_ne_nil_of_right_ne_nil sign notEmpty
    have numeral_eq : numeral text = sign ++ digits :=
      numeral_eq_of_parts whole blankBefore blankAfter some fun character member =>
        Numeral.isMark_of_mem signed denotes member
    exact ⟨Nat.le_of_lt_succ value.toNat_lt, sign, digits, signed, notEmpty, numeral_eq, denotes⟩

example : ofText " 0X+ff" = .ok 0xff :=
  rfl

/-- Not every address has at most one marker in front of its digits and no sign. -/
theorem ofText_ok_with_two_markers :
    ¬ ∀ (text : String) (value : UInt32), ofText text = .ok value →
      ∃ lower upper, lower + upper ≤ 1 ∧ Spells lower upper [] text value := by
  intro law
  obtain ⟨lower, upper, one, spells⟩ := law "0x0x10" 16 rfl
  have two : lower = 2 := (spells.count_eq (.inl rfl)).symm.trans rfl
  omega

end Address

end RiscvImage
