import RiscvImage.Text.Utf8

/-!
# Splitting encoded text

Encoded text is split into its characters again, whatever stands behind it.  This goes
for the text from each character on as well.  A sequence that starts inside of a character
begins with a broken part instead, because no byte of a character but its first one can
begin a character.
-/

namespace RiscvImage.Utf8

/-- A byte position between two characters of a text or at one of its ends. -/
def IsBoundary (text : String) (position : Nat) : Prop :=
  ∃ front rest, text = front ++ rest ∧ position = (encode front).length

/-- A byte position inside of a character of a text. -/
def SplitsCharacter (text : String) (position : Nat) : Prop :=
  ∃ front character rest, text = front ++ String.singleton character ++ rest ∧
    (encode front).length < position ∧ position < (encode front).length + character.utf8Size

@[simp]
theorem encode_empty : encode "" = [] :=
  rfl

theorem encode_ofList (text : List Char) :
    encode (String.ofList text) = text.flatMap String.utf8EncodeChar := by
  rw [encode, String.toList_ofList]

@[simp]
theorem encode_append (front rest : String) :
    encode (front ++ rest) = encode front ++ encode rest := by
  simp only [encode, String.toList_append, List.flatMap_append]

@[simp]
theorem encode_singleton (character : Char) :
    encode (String.singleton character) = String.utf8EncodeChar character := by
  simp [encode]

/-- A character is found at the front of its encoding, whatever stands behind it. -/
theorem decodeFront?_encodeChar_append (character : Char) (rest : List UInt8) :
    decodeFront? (String.utf8EncodeChar character ++ rest) = some character := by
  have short : (String.utf8EncodeChar character).length ≤ 4 := by
    rw [String.length_utf8EncodeChar]
    exact character.utf8Size_le_four
  rw [decodeFront?, List.take_append, List.take_of_length_le short, List.toByteArray_append]
  exact ByteArray.utf8DecodeChar?_utf8EncodeChar_append

/-- A zero byte stands for the zero character and is part of no other one. -/
theorem zero_mem_encodeChar_iff {character : Char} :
    0 ∈ String.utf8EncodeChar character ↔ character = '\x00' := by
  constructor
  · intro member
    obtain ⟨index, index_lt, zero⟩ := List.getElem_of_mem member
    have begins : (0 : UInt8).IsUTF8FirstByte := .inl rfl
    rw [← zero, UInt8.isUTF8FirstByte_getElem_utf8EncodeChar] at begins
    subst begins
    have found := decodeFront?_encodeChar_append character []
    have null (rest : List UInt8) : decodeFront? (0 :: rest) = some '\x00' :=
      decodeFront?_encodeChar_append '\x00' rest
    rcases encoded : String.utf8EncodeChar character with _ | ⟨lead, rest⟩
    · exact absurd encoded String.utf8EncodeChar_ne_nil
    · obtain rfl : lead = 0 := by simpa [encoded] using zero
      rw [encoded, List.append_nil, null] at found
      exact (Option.some.inj found).symm
  · rintro rfl
    decide

/-- Only the first byte of a character begins one. -/
theorem decodeFront?_eq_none {byte : UInt8} (inner : ¬ byte.IsUTF8FirstByte) (rest : List UInt8) :
    decodeFront? (byte :: rest) = none := by
  apply Option.not_isSome_iff_eq_none.mp
  intro found
  exact inner (by simpa using ByteArray.isUTF8FirstByte_of_isSome_utf8DecodeChar? found)

theorem piecesAfter_length (skipped rest : List UInt8) :
    piecesAfter skipped.length (skipped ++ rest) = pieces rest := by
  induction skipped with
  | nil => rfl
  | cons byte skipped ih => exact ih

theorem pieces_encodeChar_append (character : Char) (rest : List UInt8) :
    pieces (String.utf8EncodeChar character ++ rest) = some character :: pieces rest := by
  have front := decodeFront?_encodeChar_append character rest
  have size := String.length_utf8EncodeChar character
  rcases encoded : String.utf8EncodeChar character with _ | ⟨lead, others⟩
  · exact absurd encoded String.utf8EncodeChar_ne_nil
  · rw [encoded] at front size
    have skipped : character.utf8Size - 1 = others.length := by
      rw [← size, List.length_cons, Nat.add_sub_cancel]
    rw [List.cons_append] at front ⊢
    rw [pieces, piecesAfter, front]
    simp only [skipped, piecesAfter_length]

/-- Encoded text is split into its characters. -/
theorem pieces_encode (text : String) : pieces (encode text) = text.toList.map some := by
  rw [encode]
  induction text.toList with
  | nil => rfl
  | cons character rest ih =>
      rw [List.flatMap_cons, pieces_encodeChar_append, ih, List.map_cons]

/-- What begins with a byte from inside of a character begins with a broken part. -/
theorem pieces_of_inner {byte : UInt8} (inner : ¬ byte.IsUTF8FirstByte) (rest : List UInt8) :
    ∃ others, pieces (byte :: rest) = none :: others := by
  rw [pieces, piecesAfter, decodeFront?_eq_none inner]
  exact ⟨_, rfl⟩

/-- A sequence without broken parts is the characters in it. -/
theorem mapM_id_eq_some_iff {parts : List (Option Char)} {text : List Char} :
    parts.mapM id = some text ↔ parts = text.map some := by
  induction parts generalizing text with
  | nil => cases text <;> simp
  | cons part parts ih =>
      rw [List.mapM_cons]
      cases part with
      | none => cases text <;> simp
      | some character =>
          cases text with
          | nil => simp [Option.bind_eq_some_iff]
          | cons first rest => simpa [Option.bind_eq_some_iff, ih] using and_comm

/-- The strict reader accepts a sequence that is made of characters only. -/
theorem decode?_eq_some_iff {bytes : List UInt8} {text : String} :
    decode? bytes = some text ↔ pieces bytes = text.toList.map some := by
  rw [decode?, Option.map_eq_some_iff]
  constructor
  · rintro ⟨characters, read, rfl⟩
    rw [String.toList_ofList]
    exact mapM_id_eq_some_iff.mp read
  · intro parts
    exact ⟨text.toList, mapM_id_eq_some_iff.mpr parts, String.ofList_toList⟩

/-- Text that was encoded is read back. -/
@[simp]
theorem decode?_encode (text : String) : decode? (encode text) = some text :=
  decode?_eq_some_iff.mpr (pieces_encode text)

/-- The lenient reader reads what the strict one reads. -/
theorem decodeLossy_of_decode? {bytes : List UInt8} {text : String}
    (read : decode? bytes = some text) : decodeLossy bytes = text := by
  rw [decodeLossy, decode?_eq_some_iff.mp read, List.map_map]
  exact (congrArg String.ofList (List.map_id _)).trans String.ofList_toList

/-- The zero bytes of encoded text are its zero characters. -/
theorem zero_mem_encode_iff {text : String} : 0 ∈ encode text ↔ '\x00' ∈ text.toList := by
  rw [encode, List.mem_flatMap]
  constructor
  · rintro ⟨character, member, zero⟩
    rwa [zero_mem_encodeChar_iff.mp zero] at member
  · intro member
    exact ⟨_, member, zero_mem_encodeChar_iff.mpr rfl⟩

/-- Bytes without a zero are not cut at one. -/
theorem takeWhile_append_of_zero_not_mem {bytes : List UInt8} (nonzero : 0 ∉ bytes)
    (rest : List UInt8) :
    (bytes ++ rest).takeWhile (· != 0) = bytes ++ rest.takeWhile (· != 0) := by
  apply List.takeWhile_append_of_pos
  intro byte member
  rw [bne_iff_ne]
  rintro rfl
  exact nonzero member

/-- Encoded text up to its first zero byte is the text up to its first zero character. -/
theorem takeWhile_encode (text : String) :
    (encode text).takeWhile (· != 0) =
      encode (String.ofList (text.toList.takeWhile (· != '\x00'))) := by
  rw [encode_ofList, encode]
  induction text.toList with
  | nil => rfl
  | cons character rest ih =>
      rw [List.flatMap_cons]
      by_cases null : character = '\x00'
      · subst null
        rfl
      · rw [takeWhile_append_of_zero_not_mem (mt zero_mem_encodeChar_iff.mp null), ih,
          List.takeWhile_cons_of_pos (by simpa using null), List.flatMap_cons]

/-- Every position in encoded text is a boundary or splits a character. -/
theorem isBoundary_or_splitsCharacter {text : String} {position : Nat}
    (inside : position ≤ (encode text).length) :
    IsBoundary text position ∨ SplitsCharacter text position := by
  obtain ⟨characters, rfl⟩ : ∃ characters, text = String.ofList characters :=
    ⟨text.toList, String.ofList_toList.symm⟩
  induction characters generalizing position with
  | nil => exact .inl ⟨"", "", rfl, Nat.le_zero.mp inside⟩
  | cons character characters ih =>
      have first : String.ofList (character :: characters) =
          String.singleton character ++ String.ofList characters := by
        rw [← List.singleton_append, String.ofList_append]
        rfl
      rw [first] at inside ⊢
      have size := String.length_utf8EncodeChar character
      rcases Nat.eq_zero_or_pos position with rfl | pos
      · exact .inl ⟨"", _, (String.empty_append).symm, rfl⟩
      rcases Nat.lt_or_ge position character.utf8Size with within | after
      · refine .inr ⟨"", character, String.ofList characters, ?_, pos, ?_⟩
        · rw [String.empty_append]
        · rwa [encode_empty, List.length_nil, Nat.zero_add]
      · rw [encode_append, encode_singleton, List.length_append, size] at inside
        have rest : position - character.utf8Size ≤ (encode (String.ofList characters)).length := by
          omega
        rcases ih rest with
          ⟨front, rest, parts, here⟩ | ⟨front, other, rest, parts, after, before⟩
        · refine .inl ⟨String.singleton character ++ front, rest, ?_, ?_⟩
          · rw [parts, String.append_assoc]
          · rw [encode_append, encode_singleton, List.length_append, size]
            omega
        · refine .inr ⟨String.singleton character ++ front, other, rest, ?_, ?_, ?_⟩
          · rw [parts, String.append_assoc, String.append_assoc, String.append_assoc]
          · rw [encode_append, encode_singleton, List.length_append, size]
            omega
          · rw [encode_append, encode_singleton, List.length_append, size]
            omega

/-- From a boundary on stands the encoding of the rest. -/
theorem drop_encode (front rest : String) :
    (encode (front ++ rest)).drop (encode front).length = encode rest := by
  rw [encode_append, List.drop_left]

/-- From inside of a character on, the first byte begins no character. -/
theorem SplitsCharacter.drop_encode {text : String} {position : Nat}
    (splits : SplitsCharacter text position) :
    ∃ byte others, (encode text).drop position = byte :: others ∧ ¬ byte.IsUTF8FirstByte := by
  obtain ⟨front, character, rest, rfl, after, before⟩ := splits
  obtain ⟨skipped, rfl⟩ := Nat.exists_eq_add_of_le (Nat.le_of_lt after)
  have inside : skipped < (String.utf8EncodeChar character).length := by
    rw [String.length_utf8EncodeChar]
    omega
  refine ⟨(String.utf8EncodeChar character)[skipped],
    (String.utf8EncodeChar character).drop (skipped + 1) ++ encode rest, ?_, ?_⟩
  · rw [String.append_assoc, encode_append, encode_append, encode_singleton, List.drop_append,
      List.drop_of_length_le (Nat.le_add_right _ _), List.nil_append, Nat.add_sub_cancel_left,
      List.drop_append_of_le_length (Nat.le_of_lt inside), List.drop_eq_getElem_cons inside,
      List.cons_append]
  · rw [UInt8.isUTF8FirstByte_getElem_utf8EncodeChar]
    omega

/-- The strict reader refuses text from inside of a character on. -/
theorem SplitsCharacter.decode?_drop {text : String} {position : Nat}
    (splits : SplitsCharacter text position) : decode? ((encode text).drop position) = none := by
  obtain ⟨byte, others, bytes, inner⟩ := splits.drop_encode
  obtain ⟨parts, split⟩ := pieces_of_inner inner others
  rw [decode?, bytes, split, List.mapM_cons]
  rfl

/-- The lenient reader begins with a replacement character there. -/
theorem SplitsCharacter.decodeLossy_drop {text : String} {position : Nat}
    (splits : SplitsCharacter text position) :
    ∃ shown, decodeLossy ((encode text).drop position) = String.singleton '\ufffd' ++ shown := by
  obtain ⟨byte, others, bytes, inner⟩ := splits.drop_encode
  obtain ⟨parts, split⟩ := pieces_of_inner inner others
  rw [decodeLossy, bytes, split, List.map_cons, ← List.singleton_append, String.ofList_append]
  exact ⟨_, rfl⟩

end RiscvImage.Utf8
