/-!
# Operations that keep their state on failure

Building a section, mapping memory or loading a file works on a value that
exists before the operation and stays usable after it, whether or not the
operation succeeded.  An `Outcome` therefore pairs the answer with the state
that is left behind, so a failed operation can be asked what it changed.
-/

namespace RiscvImage

universe u v w x

/-- The answer of an operation together with the state it leaves behind. -/
structure Outcome (ε : Type u) (σ : Type v) (α : Type w) where
  /-- The result, or why there is none. -/
  answer : Except ε α
  /-- The state after the operation, also when it failed. -/
  state : σ
  deriving Repr

namespace Outcome

variable {ε : Type u} {σ : Type v} {α : Type w} {β : Type x}

/-- Continue from the state left behind by a successful operation; a failure
stands as it is. -/
@[inline]
def andThen (first : Outcome ε σ α) (next : α → σ → Outcome ε σ β) : Outcome ε σ β :=
  match first.answer with
  | .ok value => next value first.state
  | .error reason => ⟨.error reason, first.state⟩

/-- Change the result of a successful operation. -/
def map (f : α → β) (outcome : Outcome ε σ α) : Outcome ε σ β :=
  ⟨outcome.answer.map f, outcome.state⟩

/-- Outcomes are equal if both their answers and their states are. -/
@[ext]
theorem ext {first second : Outcome ε σ α} (answer : first.answer = second.answer)
    (state : first.state = second.state) : first = second := by
  rcases first with ⟨_, _⟩
  rcases second with ⟨_, _⟩
  obtain rfl := answer
  obtain rfl := state
  rfl

@[simp]
theorem andThen_ok (value : α) (state : σ) (next : α → σ → Outcome ε σ β) :
    andThen ⟨.ok value, state⟩ next = next value state :=
  rfl

@[simp]
theorem andThen_error (reason : ε) (state : σ) (next : α → σ → Outcome ε σ β) :
    andThen ⟨.error reason, state⟩ next = ⟨.error reason, state⟩ :=
  rfl

@[simp]
theorem state_map (f : α → β) (outcome : Outcome ε σ α) :
    (outcome.map f).state = outcome.state :=
  rfl

@[simp]
theorem answer_map (f : α → β) (outcome : Outcome ε σ α) :
    (outcome.map f).answer = outcome.answer.map f :=
  rfl

theorem answer_map_eq_error_iff {f : α → β} {outcome : Outcome ε σ α} {reason : ε} :
    (outcome.map f).answer = .error reason ↔ outcome.answer = .error reason := by
  rcases outcome with ⟨found | value, state⟩ <;> simp [Except.map]

/-- Answers have no decidable equality, but what the successful ones hold may have. -/
theorem answer_eq_ok {outcome : Outcome ε σ α} {value : α}
    (holds : outcome.answer.toOption = some value) : outcome.answer = .ok value := by
  rcases outcome with ⟨reason | found, state⟩
  · contradiction
  · exact congrArg Except.ok (Option.some.inj holds)

end Outcome

end RiscvImage
