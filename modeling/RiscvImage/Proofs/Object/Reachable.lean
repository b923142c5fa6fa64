import RiscvImage.Object
import RiscvImage.Proofs.Section.Reachable

/-!
# Reachable objects

An object is reachable if some sequence of operations leads to it from an object
without contents.  Both of its sections are reachable ones then, and each of them
stays of its kind.
-/

namespace RiscvImage

namespace Object

/-- What can be done to an object. -/
inductive Operation
  | edit (kind : SectionKind) (operation : Section.Operation)
  | defineLabel (name : String) (address : UInt32)
  | defineLabelHere (name : String) (kind : SectionKind)
  deriving DecidableEq, Repr

/-- The object that an operation leaves behind, whether or not it succeeds. -/
def apply (object : Object) : Operation → Object
  | .edit kind operation => object.set kind ((object.get kind).apply operation)
  | .defineLabel name address => (object.defineLabel name address).state
  | .defineLabelHere name kind => (object.defineLabelHere name kind).state

/-- The object after a sequence of operations. -/
def run (object : Object) (operations : List Operation) : Object :=
  operations.foldl apply object

/-- Some sequence of operations leads to the object from one without contents. -/
def Reachable (object : Object) : Prop :=
  ∃ (textBase dataBase : UInt32) (operations : List Operation),
    object = (empty textBase dataBase).run operations

/-- An object as the operations on it keep it. -/
structure WellFormed (object : Object) : Prop where
  kinds : ∀ kind, (object.get kind).kind = kind
  sections : ∀ kind, (object.get kind).WellFormed

/-- All padding with instructions is made of whole words. -/
def IsWhole (object : Object) : Prop :=
  ∀ kind, (object.get kind).IsWhole

/-- An operation that pushes no item as it is, or one that is made of whole words. -/
def Operation.IsWhole : Operation → Prop
  | .edit _ operation => operation.IsWhole
  | _ => True

variable {object : Object}

theorem get_set (object : Object) (kind other : SectionKind) (s : Section) :
    (object.set kind s).get other = if other = kind then s else object.get other := by
  cases kind <;> cases other <;> rfl

@[simp]
theorem get_defineLabel (object : Object) (name : String) (address : UInt32)
    (kind : SectionKind) : (object.defineLabel name address).state.get kind = object.get kind := by
  rw [defineLabel]
  split <;> cases kind <;> rfl

@[simp]
theorem get_defineLabelHere (object : Object) (name : String) (here kind : SectionKind) :
    (object.defineLabelHere name here).state.get kind = object.get kind :=
  object.get_defineLabel name _ kind

/-- What every operation on a section preserves, all operations preserve. -/
theorem apply_induction {motive : SectionKind → Section → Prop} (operation : Operation)
    (start : ∀ kind, motive kind (object.get kind))
    (edit : ∀ kind s (change : Section.Operation), operation = .edit kind change →
      motive kind s → motive kind (s.apply change)) (kind : SectionKind) :
    motive kind ((object.apply operation).get kind) := by
  cases operation with
  | edit edited change =>
      rw [apply, get_set]
      split
      case isTrue same =>
        subst same
        exact edit kind _ change rfl (start kind)
      case isFalse => exact start kind
  | defineLabel name address =>
      rw [apply, get_defineLabel]
      exact start kind
  | defineLabelHere name here =>
      rw [apply, get_defineLabelHere]
      exact start kind

theorem wellFormed_empty (textBase dataBase : UInt32) : (empty textBase dataBase).WellFormed where
  kinds kind := by cases kind <;> rfl
  sections kind := by cases kind <;> exact Section.wellFormed_empty _ _

theorem WellFormed.apply (wellFormed : object.WellFormed) (operation : Operation) :
    (object.apply operation).WellFormed where
  kinds := apply_induction (motive := fun kind s => s.kind = kind) operation wellFormed.kinds
    fun _ s change _ same => (s.kind_apply change).trans same
  sections := apply_induction (motive := fun _ s => s.WellFormed) operation wellFormed.sections
    fun _ _ change _ before => before.apply change

theorem WellFormed.run (wellFormed : object.WellFormed) (operations : List Operation) :
    (object.run operations).WellFormed := by
  induction operations generalizing object with
  | nil => exact wellFormed
  | cons operation rest ih => exact ih (wellFormed.apply operation)

theorem Reachable.wellFormed (reachable : object.Reachable) : object.WellFormed := by
  obtain ⟨textBase, dataBase, operations, rfl⟩ := reachable
  exact (wellFormed_empty textBase dataBase).run operations

theorem isWhole_empty (textBase dataBase : UInt32) : (empty textBase dataBase).IsWhole := by
  intro kind item member
  cases kind <;> cases member

theorem IsWhole.apply (whole : object.IsWhole) {operation : Operation}
    (isWhole : operation.IsWhole) : (object.apply operation).IsWhole :=
  apply_induction (motive := fun _ s => s.IsWhole) operation whole
    fun kind _ change edits before =>
      before.apply (show Operation.IsWhole (.edit kind change) from edits ▸ isWhole)

/-- Unless an item is pushed as it is, all padding stays made of whole words. -/
theorem IsWhole.run (whole : object.IsWhole) {operations : List Operation}
    (isWhole : ∀ operation ∈ operations, operation.IsWhole) : (object.run operations).IsWhole := by
  induction operations generalizing object with
  | nil => exact whole
  | cons operation rest ih =>
      have first := whole.apply (isWhole operation List.mem_cons_self)
      exact ih first fun later member => isWhole later (List.mem_cons_of_mem operation member)

end Object

end RiscvImage
