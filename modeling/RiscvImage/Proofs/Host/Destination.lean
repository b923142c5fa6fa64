import Mathlib.Data.ENat.Basic
import RiscvImage.Proofs.Host.Sink

/-!
# Destinations

A destination is known by what it does with one write: it takes bytes as long as it has room
for them, and fails for want of room only.  How it keeps the bytes is left open, so writes
that are cut differently may leave it in different states.  They have stored the same bytes
all the same.

Sinks are destinations.  Those that grow have room for any number of bytes.
-/

namespace RiscvImage

universe u v

/-- What bytes are written to: how it takes them, and what it then holds of them.  It has
room for a number of bytes or for any number, and gives one fault for a write that is too
long for it. -/
structure Destination (ε : Type u) (σ : Type v) where
  write : σ → ByteString → Outcome ε σ Unit
  /-- The bytes that have arrived. -/
  taken : σ → ByteString
  /-- How many more bytes there is room for. -/
  room : σ → ℕ∞
  fault : ε
  write_of_le : ∀ {state data}, data.length ≤ room state →
    (write state data).answer = .ok () ∧
      taken (write state data).state = taken state ++ data ∧
      room (write state data).state = room state - data.length
  /-- Of a write that is too long, what there is room for arrives all the same. -/
  write_of_lt : ∀ {state data} {count : Nat}, room state = count → count < data.length →
    (write state data).answer = .error fault ∧
      taken (write state data).state = taken state ++ data.take count

namespace Destination

variable {ε : Type u} {σ : Type v}

/-- The outcome is one that a single write of the bytes could have. -/
structure Stores (destination : Destination ε σ) (start : σ) (data : ByteString)
    (outcome : Outcome ε σ Unit) : Prop where
  fits : data.length ≤ destination.room start →
    outcome.answer = .ok () ∧
      destination.taken outcome.state = destination.taken start ++ data ∧
      destination.room outcome.state = destination.room start - data.length
  full : ∀ {count : Nat}, destination.room start = count → count < data.length →
    outcome.answer = .error destination.fault ∧
      destination.taken outcome.state = destination.taken start ++ data.take count

variable {destination : Destination ε σ} {start : σ} {front rest : ByteString}

theorem stores_write (destination : Destination ε σ) (start : σ) (data : ByteString) :
    destination.Stores start data (destination.write start data) where
  fits := destination.write_of_le
  full := destination.write_of_lt

theorem stores_empty (destination : Destination ε σ) (start : σ) :
    destination.Stores start .empty ⟨.ok (), start⟩ where
  fits _ := by
    refine ⟨rfl, (ByteString.append_empty _).symm, ?_⟩
    rw [ByteString.length_empty, Nat.cast_zero, tsub_zero]
  full _ short := absurd short (Nat.not_lt_zero _)

theorem Stores.le_room {next : σ} (stored : destination.Stores start front ⟨.ok (), next⟩) :
    front.length ≤ destination.room start := by
  refine le_of_not_gt fun short => ?_
  obtain ⟨count, room⟩ := ENat.ne_top_iff_exists.mp (ne_top_of_lt short)
  rw [← room, Nat.cast_lt] at short
  have refused := (stored.full room.symm short).1
  contradiction

theorem Stores.room_lt {fault : ε} {stop : σ}
    (stored : destination.Stores start front ⟨.error fault, stop⟩) :
    destination.room start < front.length := by
  refine lt_of_not_ge fun room => ?_
  have taken := (stored.fits room).1
  contradiction

/-- Bytes after those that do not fit make no difference. -/
theorem Stores.append_of_error {fault : ε} {stop : σ}
    (stored : destination.Stores start front ⟨.error fault, stop⟩) (rest : ByteString) :
    destination.Stores start (front ++ rest) ⟨.error fault, stop⟩ where
  fits room := by
    rw [ByteString.length_append, Nat.cast_add] at room
    exact absurd stored.room_lt (not_lt_of_ge (le_trans le_self_add room))
  full {count} room _ := by
    have short : count < front.length := Nat.cast_lt.mp (room ▸ stored.room_lt)
    have none : count - front.length = 0 := Nat.sub_eq_zero_of_le (Nat.le_of_lt short)
    rw [ByteString.take_append, none, ByteString.take_zero, ByteString.append_empty]
    exact stored.full room short

/-- Bytes that are stored one after the other are stored as if they were one. -/
theorem Stores.append {next : σ} {outcome : Outcome ε σ Unit}
    (first : destination.Stores start front ⟨.ok (), next⟩)
    (second : destination.Stores next rest outcome) :
    destination.Stores start (front ++ rest) outcome := by
  obtain ⟨-, arrived, left⟩ := first.fits first.le_room
  constructor
  case fits =>
    intro room
    rw [ByteString.length_append, Nat.cast_add] at room ⊢
    have fits : rest.length ≤ destination.room next :=
      left ▸ ENat.le_sub_of_add_le_left (ENat.natCast_ne_top _) room
    obtain ⟨answer, taken, rest_left⟩ := second.fits fits
    refine ⟨answer, ?_, ?_⟩
    · rw [taken, arrived, ByteString.append_assoc]
    · rw [rest_left, left, tsub_tsub]
  case full =>
    intro count room short
    have fits : front.length ≤ count := Nat.cast_le.mp (room ▸ first.le_room)
    have next_room : destination.room next = (count - front.length : Nat) := by
      rw [left, room, ENat.natCast_sub]
    rw [ByteString.length_append] at short
    obtain ⟨answer, taken⟩ := second.full next_room (by omega)
    refine ⟨answer, ?_⟩
    rw [taken, arrived, ByteString.append_assoc, ByteString.take_append,
      ByteString.take_of_length_le fits]

end Destination

namespace Sink

/-- What a sink holds before its position. -/
def front (sink : Sink) : ByteString :=
  sink.before.reverse ++ .zero sink.gap

theorem front_store (sink : Sink) (data : ByteString) :
    (sink.store data).front = sink.front ++ data := by
  rw [store]
  split
  case isTrue none =>
    rw [ByteString.eq_empty_of_length_eq_zero none, ByteString.append_empty]
  case isFalse =>
    ext1
    simp [front]

/-- A sink that grows has room for any number of bytes. -/
noncomputable def destination : Destination IoFault Sink where
  write := write
  taken := front
  room sink := if sink.grows then ⊤ else sink.room
  fault := .noRoom
  write_of_le {sink data} fits := by
    cases grows : sink.grows with
    | true =>
        rw [write_of_grows grows, front_store]
        simp [grows]
    | false =>
        rw [grows, if_neg Bool.false_ne_true, Nat.cast_le] at fits
        rw [write_of_fixed grows, ByteString.take_of_length_le fits, front_store]
        simp [grows, fits, room_store fits]
  write_of_lt {sink data count} room short := by
    cases grows : sink.grows with
    | true => simp [grows] at room
    | false =>
        rw [grows, if_neg Bool.false_ne_true, Nat.cast_inj] at room
        obtain rfl := room
        rw [write_of_fixed grows, front_store, if_neg (Nat.not_le_of_lt short)]
        exact ⟨rfl, rfl⟩

theorem room_destination_of_grows {sink : Sink} (grows : sink.grows = true) :
    destination.room sink = ⊤ :=
  if_pos grows

theorem room_destination_of_fixed {sink : Sink} (fixed : sink.grows = false) :
    destination.room sink = sink.room :=
  if_neg (Bool.eq_false_iff.mp fixed)

end Sink

end RiscvImage
