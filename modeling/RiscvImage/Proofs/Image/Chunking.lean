import RiscvImage.Proofs.Host.Destination
import RiscvImage.Proofs.Image.Emission

/-!
# Writing in chunks

A repeated pattern is written as one chunk again and again, and as a part of the chunk in the
end.  What arrives is the pattern over and over without a seam, since a chunk that is not the
last one consists of whole patterns.  The writing ends, since a chunk is empty only if there
is nothing to write; with an empty chunk it would go on for ever.

Neither is peculiar to sinks, so both are proved for every destination.
-/

namespace RiscvImage

universe u v

section WritesOut

variable {ε : Type u} {σ : Type v}

/-- Writing as many bytes as told with one chunk: as long as some are missing and no write
fails, the next write is of the chunk, or of the front of it that is still missing.  Writing
that goes on for ever has no outcome. -/
inductive WritesOut (write : σ → ByteString → Outcome ε σ Unit) (chunk : ByteString) :
    Nat → σ → Outcome ε σ Unit → Prop
  | done (state : σ) : WritesOut write chunk 0 state ⟨.ok (), state⟩
  | failed {missing : Nat} {state stop : σ} {fault : ε} (some : 0 < missing)
      (refused : write state (chunk.take (min missing chunk.length)) = ⟨.error fault, stop⟩) :
      WritesOut write chunk missing state ⟨.error fault, stop⟩
  | more {missing : Nat} {state next : σ} {outcome : Outcome ε σ Unit} (some : 0 < missing)
      (taken : write state (chunk.take (min missing chunk.length)) = ⟨.ok (), next⟩)
      (rest : WritesOut write chunk (missing - min missing chunk.length) next outcome) :
      WritesOut write chunk missing state outcome

variable {write : σ → ByteString → Outcome ε σ Unit} {chunk : ByteString} {missing : Nat}
  {state : σ}

/-- The writing has one outcome at most. -/
theorem WritesOut.unique {first second : Outcome ε σ Unit}
    (one : WritesOut write chunk missing state first)
    (two : WritesOut write chunk missing state second) : first = second := by
  induction one with
  | done state =>
      cases two with
      | done => rfl
      | failed some => exact absurd some (Nat.lt_irrefl 0)
      | more some => exact absurd some (Nat.lt_irrefl 0)
  | failed some refused =>
      cases two with
      | done => exact absurd some (Nat.lt_irrefl 0)
      | failed _ again => exact refused.symm.trans again
      | more _ taken => simp [refused] at taken
  | more some taken _ ih =>
      cases two with
      | done => exact absurd some (Nat.lt_irrefl 0)
      | failed _ refused => simp [taken] at refused
      | more _ again rest =>
          obtain ⟨-, rfl⟩ := Outcome.mk.inj (taken.symm.trans again)
          exact ih rest

/-- The writing ends whatever the writes do, since each leaves less that is missing. -/
theorem exists_writesOut (write : σ → ByteString → Outcome ε σ Unit) {chunk : ByteString}
    {missing : Nat} (nonempty : 0 < missing → 0 < chunk.length) (state : σ) :
    ∃ outcome, WritesOut write chunk missing state outcome := by
  induction missing using Nat.strong_induction_on generalizing state with
  | h missing ih =>
      obtain rfl | some := Nat.eq_zero_or_pos missing
      · exact ⟨_, .done state⟩
      · have size := nonempty some
        have less : missing - min missing chunk.length < missing := by omega
        rcases written : write state (chunk.take (min missing chunk.length)) with
          ⟨fault | _, next⟩
        · exact ⟨_, .failed some written⟩
        · obtain ⟨outcome, rest⟩ := ih _ less (fun _ => size) next
          exact ⟨outcome, .more some written rest⟩

/-- With an empty chunk, the writing does not end where writes of nothing succeed. -/
theorem not_writesOut_empty (taken : ∀ state, (write state .empty).answer = .ok ())
    (some : 0 < missing) {outcome : Outcome ε σ Unit} :
    ¬ WritesOut write .empty missing state outcome := by
  intro run
  induction run with
  | done => exact Nat.lt_irrefl 0 some
  | @failed _ state _ _ _ refused =>
      have answer := taken state
      rw [ByteString.length_empty, Nat.min_zero, ByteString.take_zero] at refused
      rw [refused] at answer
      contradiction
  | more _ _ _ ih =>
      rw [ByteString.length_empty, Nat.min_zero, Nat.sub_zero] at ih
      exact ih some

/-- A law on what comes of writing some bytes that does not depend on the pieces in which they
are written. -/
structure Composes (write : σ → ByteString → Outcome ε σ Unit)
    (Law : σ → ByteString → Outcome ε σ Unit → Prop) : Prop where
  empty : ∀ state, Law state .empty ⟨.ok (), state⟩
  failed : ∀ {state stop fault front} (rest : ByteString),
    write state front = ⟨.error fault, stop⟩ → Law state (front ++ rest) ⟨.error fault, stop⟩
  more : ∀ {state next front rest outcome}, write state front = ⟨.ok (), next⟩ →
    Law next rest outcome → Law state (front ++ rest) outcome

/-- The next write and what is missing after it make up what was missing before, without a
seam: either the chunk consists of whole patterns, or nothing is missing after it. -/
theorem ByteString.take_append_cyclic {pattern : List UInt8} (wide : 0 < pattern.length)
    {size missing : Nat} (whole : pattern.length ∣ size ∨ missing ≤ size) :
    (cyclic pattern size).take (min missing size) ++ cyclic pattern (missing - min missing size) =
      cyclic pattern missing := by
  rw [take_cyclic wide (Nat.min_le_right _ _)]
  by_cases last : missing ≤ size
  case pos => rw [Nat.min_eq_left last, Nat.sub_self, cyclic_zero, append_empty]
  case neg =>
    have size_le : size ≤ missing := Nat.le_of_not_le last
    rw [Nat.min_eq_right size_le, cyclic_append wide (whole.resolve_right last),
      Nat.add_sub_cancel' size_le]

/-- Writing a repeated pattern in chunks is like writing all of it at once. -/
theorem WritesOut.law {Law : σ → ByteString → Outcome ε σ Unit → Prop}
    (composes : Composes write Law) {pattern : List UInt8} (wide : 0 < pattern.length)
    {size : Nat} (whole : pattern.length ∣ size ∨ missing ≤ size) {outcome : Outcome ε σ Unit}
    (run : WritesOut write (.cyclic pattern size) missing state outcome) :
    Law state (.cyclic pattern missing) outcome := by
  -- The induction is on the writes.  It is carried by each of them starting where the pattern
  -- does, which is so as long as another one follows.
  induction run with
  | done state =>
      rw [ByteString.cyclic_zero]
      exact composes.empty state
  | failed _ refused =>
      rw [ByteString.length_cyclic wide] at refused
      rw [← ByteString.take_append_cyclic wide whole]
      exact composes.failed _ refused
  | more _ taken _ ih =>
      rw [ByteString.length_cyclic wide] at taken ih
      rw [← ByteString.take_append_cyclic wide whole]
      exact composes.more taken (ih (whole.imp_right (Nat.le_trans (Nat.sub_le _ _))))

end WritesOut

namespace Destination

variable {ε : Type u} {σ : Type v}

theorem composes_stores (destination : Destination ε σ) :
    Composes destination.write destination.Stores where
  empty := destination.stores_empty
  failed rest refused := (refused ▸ destination.stores_write _ _).append_of_error rest
  more taken stored := (taken ▸ destination.stores_write _ _).append stored

/-- What arrives of a repeated pattern is the front of it that there is room for. -/
theorem Stores.exists_arrived {destination : Destination ε σ} {pattern : List UInt8}
    (wide : 0 < pattern.length) {total : Nat} {start : σ} {outcome : Outcome ε σ Unit}
    (stored : destination.Stores start (.cyclic pattern total) outcome) :
    ∃ count,
      destination.taken outcome.state = destination.taken start ++ .cyclic pattern count ∧
      (total ≤ destination.room start → outcome.answer = .ok () ∧ count = total) ∧
      ∀ room < total, destination.room start = room →
        outcome.answer = .error destination.fault ∧ count = room := by
  have length := ByteString.length_cyclic wide total
  by_cases enough : total ≤ destination.room start
  case pos =>
    obtain ⟨answer, taken, -⟩ := stored.fits (by rwa [length])
    refine ⟨total, taken, fun _ => ⟨answer, rfl⟩, fun room short exactly => ?_⟩
    rw [exactly, Nat.cast_le] at enough
    exact absurd short (Nat.not_lt_of_le enough)
  case neg =>
    have short := lt_of_not_ge enough
    obtain ⟨count, exactly⟩ := ENat.ne_top_iff_exists.mp (ne_top_of_lt short)
    rw [← exactly, Nat.cast_lt] at short
    obtain ⟨answer, taken⟩ := stored.full exactly.symm (by rwa [length])
    rw [ByteString.take_cyclic wide (Nat.le_of_lt short)] at taken
    refine ⟨count, taken, fun room => absurd room enough, fun room _ same => ⟨answer, ?_⟩⟩
    rwa [← exactly, Nat.cast_inj] at same

end Destination

theorem Sink.composes_write :
    Composes write fun sink data outcome => outcome = sink.write data where
  empty sink := sink.write_empty.symm
  failed {sink _ _ front} rest refused := by
    rw [write_append, refused, Outcome.andThen_error]
  more {sink _ front rest _} taken same := by
    rw [write_append, taken, Outcome.andThen_ok, same]

/-- A repeated pattern whose length divides that of a chunk is written in chunks to every
destination in finitely many writes, with one outcome, and arrives without a seam: all of it if
there is room, and otherwise the front of it that there is room for, together with the fault of
the destination.  The total need not be made of whole patterns.  For sinks, this is how
repeated patterns are written. -/
theorem writesOut_keeps_phase {pattern : List UInt8} (divides : pattern.length ∣ chunkSize)
    (total : Nat) {ε : Type u} {σ : Type v} (destination : Destination ε σ) (start : σ) :
    let chunk := ByteString.cyclic pattern (min chunkSize total)
    (∃ (outcome : Outcome ε σ Unit) (arrived : ByteString),
      (∀ other, WritesOut destination.write chunk total start other ↔ other = outcome) ∧
      destination.taken outcome.state = destination.taken start ++ arrived ∧
      (∀ index < arrived.length, arrived.bytes[index]? = pattern[index % pattern.length]?) ∧
      (total ≤ destination.room start → outcome.answer = .ok () ∧ arrived.length = total) ∧
      ∀ count < total, destination.room start = count →
        outcome.answer = .error destination.fault ∧ arrived.length = count) ∧
    ∀ (sink : Sink) (outcome : Outcome IoFault Sink Unit),
      WritesOut Sink.write chunk total sink outcome ↔
        outcome = sink.writeRepeated pattern total := by
  intro chunk
  have wide : 0 < pattern.length := Nat.pos_of_dvd_of_pos divides (by decide)
  have length : chunk.length = min chunkSize total := ByteString.length_cyclic wide _
  have nonempty : 0 < total → 0 < chunk.length := by
    intro some
    rw [length]
    exact Nat.lt_min.mpr ⟨by decide, some⟩
  have whole : pattern.length ∣ min chunkSize total ∨ total ≤ min chunkSize total := by
    obtain short | long := Nat.le_total total chunkSize
    · exact .inr (Nat.le_min.mpr ⟨short, Nat.le_refl total⟩)
    · exact .inl (by rwa [Nat.min_eq_left long])
  refine ⟨?destination, ?sink⟩
  case destination =>
    obtain ⟨outcome, run⟩ := exists_writesOut destination.write nonempty start
    have stored := run.law destination.composes_stores wide whole
    obtain ⟨count, taken, fits, full⟩ := stored.exists_arrived wide
    have arrived : (ByteString.cyclic pattern count).length = count :=
      ByteString.length_cyclic wide count
    refine ⟨outcome, .cyclic pattern count, fun other => ?ends, taken, ?phase, ?_⟩
    case ends => exact ⟨fun again => again.unique run, fun same => same ▸ run⟩
    case phase =>
      intro index inside
      rw [arrived] at inside
      rw [ByteString.getElem?_cyclic wide, if_pos inside]
    · rw [arrived]
      exact ⟨fits, full⟩
  case sink =>
    intro sink outcome
    have written := sink.writeRepeated_eq_write divides total
    constructor
    case mp =>
      intro run
      exact (run.law Sink.composes_write wide whole).trans written.symm
    case mpr =>
      rintro rfl
      obtain ⟨outcome, run⟩ := exists_writesOut Sink.write nonempty sink
      rwa [written, ← run.law Sink.composes_write wide whole]

/-- Of ten thousand bytes of instructions that do nothing, a sink that grows takes all, and one
of five thousand bytes the first five thousand, which end in the second chunk. -/
theorem writesOut_keeps_phase_nops :
    let pattern := Fill.pattern .nop
    let written := Sink.empty.writeRepeated pattern 10000
    let cut := (Sink.fixed (.zero 5000)).writeRepeated pattern 10000
    pattern.length ∣ chunkSize ∧
      written.answer = .ok () ∧ written.state.front.length = 10000 ∧
      (∀ index < 10000, written.state.front.bytes[index]? = pattern[index % 4]?) ∧
      cut.answer = .error .noRoom ∧ cut.state.front.length = 5000 ∧
      ∀ index < 5000, cut.state.front.bytes[index]? = pattern[index % 4]? := by
  intro pattern written cut
  have divides : pattern.length ∣ chunkSize := by decide
  have alone {contents data : ByteString} {grows : Bool} {stop : Sink}
      (taken : stop.front = (Sink.standingAt contents 0 grows).front ++ data) :
      stop.front = data := by
    have nothing : (Sink.standingAt contents 0 grows).front = .empty := by
      ext1
      simp [Sink.standingAt, Sink.front]
    rw [taken, nothing, ByteString.empty_append]
  have endless : Sink.destination.room .empty = ⊤ := Sink.room_destination_of_grows rfl
  have bounded : Sink.destination.room (.fixed (.zero 5000)) = (5000 : Nat) := by
    have room : (Sink.fixed (.zero 5000)).room = 5000 := by
      simp [Sink.room, Sink.fixed, Sink.standingAt]
    rw [Sink.room_destination_of_fixed rfl, room]
  obtain ⟨⟨outcome, all, ends, taken, phase, fits, -⟩, runs⟩ :=
    writesOut_keeps_phase divides 10000 Sink.destination .empty
  obtain ⟨⟨other, part, otherEnds, otherTaken, otherPhase, -, full⟩, -⟩ :=
    writesOut_keeps_phase divides 10000 Sink.destination (.fixed (.zero 5000))
  obtain rfl : outcome = written := (runs _ _).mp ((ends _).mpr rfl)
  obtain rfl : other = cut := (runs _ _).mp ((otherEnds _).mpr rfl)
  obtain ⟨answer, length⟩ := fits (endless ▸ le_top)
  obtain ⟨refused, short⟩ := full 5000 (by decide) bounded
  have whole : written.state.front = all := alone taken
  have front : cut.state.front = part := alone otherTaken
  rw [length] at phase
  rw [short] at otherPhase
  rw [whole, front]
  exact ⟨divides, answer, length, phase, refused, short, otherPhase⟩

end RiscvImage
