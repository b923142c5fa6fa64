import RiscvImage.Host.Sink

/-!
# Writing in pieces

It makes no difference in how many pieces bytes are written to a sink, neither to
what the sink holds afterwards nor to whether there was room for them.  So a writer
that places part after part is understood from the bytes of all parts together.

A sink whose position lies within its contents is settled.  Moving a settled sink to
where it already stands changes nothing, and it stays settled while it is written.
-/

namespace RiscvImage.Sink

@[simp]
theorem store_empty (sink : Sink) : sink.store .empty = sink :=
  if_pos rfl

/-- Bytes that fit one after the other are stored as if they were one. -/
theorem store_append (sink : Sink) (front rest : ByteString) :
    sink.store (front ++ rest) = (sink.store front).store rest := by
  by_cases frontEmpty : front.length = 0
  · rw [ByteString.eq_empty_of_length_eq_zero frontEmpty, ByteString.empty_append, store_empty]
  · by_cases restEmpty : rest.length = 0
    · rw [ByteString.eq_empty_of_length_eq_zero restEmpty, ByteString.append_empty, store_empty]
    · have notEmpty : (front ++ rest).length ≠ 0 := by
        rw [ByteString.length_append]
        omega
      have before : (front ++ rest).reverse ++ (.zero sink.gap ++ sink.before) =
          rest.reverse ++ (.zero 0 ++ (front.reverse ++ (.zero sink.gap ++ sink.before))) := by
        ext1
        simp
      have after : sink.after.drop (front ++ rest).length =
          (sink.after.drop front.length).drop rest.length := by
        ext1
        simp
      rw [store, if_neg notEmpty, store, if_neg restEmpty, store, if_neg frontEmpty]
      simp only [before, after]

@[simp]
theorem grows_store (sink : Sink) (data : ByteString) : (sink.store data).grows = sink.grows := by
  rw [store]
  split <;> rfl

/-- A settled sink stays settled. -/
theorem gap_store {sink : Sink} (settled : sink.gap = 0) (data : ByteString) :
    (sink.store data).gap = 0 := by
  rw [store]
  split
  · exact settled
  · rfl

theorem length_after_store {sink : Sink} (data : ByteString) :
    (sink.store data).after.length = sink.after.length - data.length := by
  rw [store]
  split
  case isTrue none => rw [none, Nat.sub_zero]
  case isFalse => exact ByteString.length_drop _ _

theorem position_store (sink : Sink) (data : ByteString) :
    (sink.store data).position = sink.position + data.length := by
  rw [store]
  split
  case isTrue none => rw [none, Nat.add_zero]
  case isFalse =>
    simp only [position, ByteString.length_append, ByteString.length_reverse,
      ByteString.length_zero]
    omega

/-- What is stored replaces what stood at the position. -/
theorem contents_store {sink : Sink} (settled : sink.gap = 0) (data : ByteString) :
    (sink.store data).contents = sink.contents.overwrite sink.position data := by
  by_cases none : data.length = 0
  · obtain rfl := ByteString.eq_empty_of_length_eq_zero none
    have inside : sink.position ≤ sink.contents.length := by
      rw [position, settled, contents, ByteString.length_append, ByteString.length_reverse]
      omega
    rw [store_empty, ByteString.overwrite_empty inside]
  · have front : sink.contents.padded sink.position = sink.before.reverse := by
      ext1
      simp [contents, position, settled]
    have rest : sink.contents.drop (sink.position + data.length) =
        sink.after.drop data.length := by
      ext1
      simp [contents, position, settled, List.drop_append]
    have stored : (sink.store data).contents =
        (data.reverse ++ (.zero 0 ++ sink.before)).reverse ++ sink.after.drop data.length := by
      rw [store, if_neg none, settled]
      rfl
    rw [stored, ByteString.overwrite, front, rest]
    ext1
    simp

/-- How many more bytes a sink of a fixed size takes. -/
def room (sink : Sink) : Nat :=
  if sink.gap = 0 then sink.after.length else 0

theorem room_store {sink : Sink} {data : ByteString} (fits : data.length ≤ sink.room) :
    (sink.store data).room = sink.room - data.length := by
  by_cases settled : sink.gap = 0
  · rw [room, room, if_pos settled, if_pos (gap_store settled data), length_after_store]
  · have none : sink.room = 0 := if_neg settled
    obtain rfl := ByteString.eq_empty_of_length_eq_zero (Nat.le_zero.mp (none ▸ fits))
    rw [store_empty, ByteString.length_empty, Nat.sub_zero]

theorem write_of_grows {sink : Sink} (grows : sink.grows = true) (data : ByteString) :
    sink.write data = ⟨.ok (), sink.store data⟩ := by
  simp [write, fitting, grows]

/-- A sink of a fixed size takes what it has room for. -/
theorem write_of_fixed {sink : Sink} (fixed : sink.grows = false) (data : ByteString) :
    sink.write data =
      ⟨if data.length ≤ sink.room then .ok () else .error .noRoom,
        sink.store (data.take sink.room)⟩ := by
  have fitting : sink.fitting data = data.take sink.room := by
    by_cases settled : sink.gap = 0
    · simp [fitting, room, fixed, settled]
    · simp only [fitting, room, fixed, settled, Bool.false_eq_true, if_false]
      ext1
      simp
  have length : (data.take sink.room).length = data.length ↔ data.length ≤ sink.room := by
    rw [ByteString.length_take]
    omega
  simp only [write, fitting, length]

/-- Writing two pieces one after the other is writing them as one. -/
theorem write_append (sink : Sink) (front rest : ByteString) :
    sink.write (front ++ rest) = (sink.write front).andThen fun _ sink => sink.write rest := by
  cases grows : sink.grows with
  | true =>
      have growsOn : (sink.store front).grows = true := (sink.grows_store front).trans grows
      rw [write_of_grows grows, write_of_grows grows, Outcome.andThen_ok, write_of_grows growsOn,
        store_append]
  | false =>
      rw [write_of_fixed grows, write_of_fixed grows]
      by_cases fits : front.length ≤ sink.room
      · have fixedOn : (sink.store front).grows = false := (sink.grows_store front).trans grows
        have whole : front.take sink.room = front := ByteString.take_of_length_le fits
        have both : (front ++ rest).length ≤ sink.room ↔
            rest.length ≤ sink.room - front.length := by
          rw [ByteString.length_append]
          omega
        rw [if_pos fits, whole, Outcome.andThen_ok, write_of_fixed fixedOn, room_store fits,
          ByteString.take_append, whole, store_append]
        simp only [both]
      · have none : sink.room - front.length = 0 := by omega
        have tooLong : ¬ (front ++ rest).length ≤ sink.room := by
          rw [ByteString.length_append]
          omega
        rw [if_neg fits, if_neg tooLong, Outcome.andThen_error, ByteString.take_append, none,
          ByteString.take_zero, ByteString.append_empty]

theorem write_empty (sink : Sink) : sink.write .empty = ⟨.ok (), sink⟩ := by
  cases grows : sink.grows with
  | true => rw [write_of_grows grows, store_empty]
  | false =>
      rw [write_of_fixed grows, ByteString.take_of_length_le (Nat.zero_le _), store_empty,
        ByteString.length_empty, if_pos (Nat.zero_le _)]

theorem writeEach_eq_write (sink : Sink) (pieces : List ByteString) :
    sink.writeEach pieces = sink.write (.concat pieces) := by
  induction pieces generalizing sink with
  | nil => exact sink.write_empty.symm
  | cons piece rest ih =>
      rw [writeEach, ByteString.concat_cons, write_append]
      simp only [ih]

/-- A write that succeeds has stored all of its bytes. -/
theorem write_eq_of_ok {sink : Sink} {data : ByteString}
    (written : (sink.write data).answer = .ok ()) :
    sink.write data = ⟨.ok (), sink.store data⟩ := by
  cases grows : sink.grows with
  | true => exact write_of_grows grows data
  | false =>
      rw [write_of_fixed grows] at written ⊢
      by_cases fits : data.length ≤ sink.room
      · rw [if_pos fits, ByteString.take_of_length_le fits]
      · rw [if_neg fits] at written
        contradiction

/-- Moving a settled sink to where it stands changes nothing. -/
theorem seek_position {sink : Sink} (settled : sink.gap = 0) : sink.seek sink.position = sink := by
  rcases sink with ⟨before, after, gap, grows⟩
  obtain rfl : gap = 0 := settled
  have length : before.reverse.length = before.length := ByteString.length_reverse before
  have front : (before.reverse ++ after).take before.length = before.reverse := by
    ext1
    simp
  have rest : (before.reverse ++ after).drop before.length = after := by
    ext1
    simp
  have none : before.length - (before.reverse ++ after).length = 0 := by
    rw [ByteString.length_append, length]
    omega
  have back : before.reverse.reverse = before := by
    ext1
    simp
  simp only [seek, position, contents, standingAt, Nat.add_zero, front, rest, none, back]

theorem gap_seek_zero (sink : Sink) : (sink.seek 0).gap = 0 :=
  Nat.zero_sub _

/-- A sink of a fixed size has room for as many bytes as it holds. -/
theorem room_seek_zero (sink : Sink) : (sink.seek 0).room = sink.contents.length := by
  rw [room, if_pos sink.gap_seek_zero, seek, standingAt, ByteString.length_drop, Nat.sub_zero]

/-- What is stored from the beginning on replaces what stood there. -/
theorem contents_store_seek_zero (sink : Sink) (data : ByteString) :
    ((sink.seek 0).store data).contents = sink.contents.overwrite 0 data := by
  rw [contents_store sink.gap_seek_zero, seek, contents_standingAt, position_standingAt]

end RiscvImage.Sink
