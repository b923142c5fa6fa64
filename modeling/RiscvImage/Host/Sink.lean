import RiscvImage.ByteString.Window
import RiscvImage.Host.Fault
import RiscvImage.Outcome

/-!
# Seekable destinations

A sink holds bytes and a position at which the next bytes go.  One kind grows
as it is written, the other keeps its size and takes only what fits.

The bytes are kept in two parts, those before the position and those after it, so
that writing takes no longer than what is written.
-/

namespace RiscvImage

/-- A destination for bytes. -/
structure Sink where
  /-- The bytes before the position, the nearest first. -/
  before : ByteString
  /-- The bytes from the position on. -/
  after : ByteString
  /-- How far the position is beyond the last byte. -/
  gap : Nat
  /-- Whether the sink can become longer than it is. -/
  grows : Bool
  deriving DecidableEq, Repr

namespace Sink

/-- What a sink holds. -/
def contents (sink : Sink) : ByteString :=
  sink.before.reverse ++ sink.after

/-- Where the next write goes. -/
def position (sink : Sink) : Nat :=
  sink.before.length + sink.gap

/-- A sink that stands at a position of its contents, or beyond them. -/
def standingAt (contents : ByteString) (position : Nat) (grows : Bool) : Sink :=
  ⟨(contents.take position).reverse, contents.drop position, position - contents.length, grows⟩

/-- A growing sink that holds nothing. -/
def empty : Sink :=
  standingAt .empty 0 true

/-- A growing sink over earlier contents. -/
def growing (contents : ByteString) (position : Nat) : Sink :=
  standingAt contents position true

/-- A sink of a fixed size over earlier contents. -/
def fixed (contents : ByteString) : Sink :=
  standingAt contents 0 false

/-- Move the position. -/
def seek (sink : Sink) (position : Nat) : Sink :=
  standingAt sink.contents position sink.grows

/-- The part of `data` for which there is room at the position. -/
def fitting (sink : Sink) (data : ByteString) : ByteString :=
  if sink.grows then data
  else if sink.gap = 0 then data.take sink.after.length
  else .empty

/-- The sink after bytes that fit.  A gap in front of them is filled with zero
bytes. -/
def store (sink : Sink) (data : ByteString) : Sink :=
  if data.length = 0 then sink
  else
    { sink with
      before := data.reverse ++ (.zero sink.gap ++ sink.before)
      after := sink.after.drop data.length
      gap := 0 }

/-- Write at the position and move past what was written.  If there is not room
for all of it, what fits is written all the same. -/
def write (sink : Sink) (data : ByteString) : Outcome IoFault Sink Unit :=
  let stored := sink.fitting data
  ⟨if stored.length = data.length then .ok () else .error .noRoom, sink.store stored⟩

/-- Write several pieces one after the other, up to the first that fails. -/
def writeEach (sink : Sink) : List ByteString → Outcome IoFault Sink Unit
  | [] => ⟨.ok (), sink⟩
  | piece :: rest => (sink.write piece).andThen fun _ sink => sink.writeEach rest

@[simp]
theorem contents_standingAt (contents : ByteString) (position : Nat) (grows : Bool) :
    (standingAt contents position grows).contents = contents := by
  ext1
  simp [standingAt, Sink.contents]

@[simp]
theorem position_standingAt (contents : ByteString) (position : Nat) (grows : Bool) :
    (standingAt contents position grows).position = position := by
  simp only [standingAt, Sink.position, ByteString.length_reverse, ByteString.length_take]
  omega

end Sink

end RiscvImage
