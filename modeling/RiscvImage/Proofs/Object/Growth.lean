import RiscvImage.Proofs.Object.Reachable
import RiscvImage.Proofs.Section.Growth

/-!
# Growing objects

While an object is built, addresses are handed out: a push answers where its item stands,
and a label can be given to the end of a section.  They stay good if no section is moved
after the first address in it was handed out.  Then every item stands where its push said,
whatever is done later, and a label at the end of a section is the address of the item
that is pushed there next.
-/

namespace RiscvImage

namespace Object

/-- The operation moves the section of a kind. -/
def Operation.Moves (kind : SectionKind) : Operation → Prop
  | .edit edited operation => edited = kind ∧ operation.Moves
  | _ => False

/-- The operation hands out an address in the section of a kind. -/
def Operation.Fixes (kind : SectionKind) : Operation → Prop
  | .edit edited operation => edited = kind ∧ ¬ operation.Moves
  | .defineLabel .. => False
  | .defineLabelHere _ here => here = kind

/-- Every move of a section comes before any push to it and any label at its end. -/
def MovesFirst (operations : List Operation) : Prop :=
  operations.Pairwise fun earlier later => ∀ kind, earlier.Fixes kind → ¬ later.Moves kind

variable {object : Object} {kind : SectionKind} {name : String} {address : UInt32}

theorem run_append (object : Object) (first second : List Operation) :
    object.run (first ++ second) = (object.run first).run second :=
  List.foldl_append

theorem run_cons (object : Object) (operation : Operation) (rest : List Operation) :
    object.run (operation :: rest) = (object.apply operation).run rest :=
  rfl

/-- What follows an address that was handed out does not move its section. -/
theorem MovesFirst.not_moves {before after : List Operation} {operation : Operation}
    (movesFirst : MovesFirst (before ++ operation :: after)) (fixes : operation.Fixes kind) :
    ∀ later ∈ after, ¬ later.Moves kind := by
  have behind := (List.pairwise_append.mp movesFirst).2.1
  exact fun later member => (List.pairwise_cons.mp behind).1 later member kind fixes

/-- A section that is not moved only grows. -/
theorem extends_apply {operation : Operation} (stays : ¬ operation.Moves kind) :
    ((object.apply operation).get kind).Extends (object.get kind) := by
  have grown := apply_induction
    (motive := fun kind s => ¬ operation.Moves kind → s.Extends (object.get kind)) operation
    (fun kind _ => .refl (object.get kind)) ?edit kind
  case edit =>
    rintro kind s change rfl before stays
    have unmoved : ¬ change.Moves := fun moves => stays ⟨rfl, moves⟩
    exact (Section.extends_apply unmoved).trans (before stays)
  exact grown stays

/-- A section that is not moved only grows in a run. -/
theorem extends_run {operations : List Operation}
    (stay : ∀ operation ∈ operations, ¬ operation.Moves kind) :
    ((object.run operations).get kind).Extends (object.get kind) := by
  induction operations generalizing object with
  | nil => exact .refl _
  | cons operation rest ih =>
      have first : ((object.apply operation).get kind).Extends (object.get kind) :=
        extends_apply (stay operation List.mem_cons_self)
      exact (ih fun later member => stay later (List.mem_cons_of_mem operation member)).trans first

/-- A label that is defined keeps its address. -/
theorem findLabel?_apply (defined : object.findLabel? name = some address)
    (operation : Operation) : (object.apply operation).findLabel? name = some address := by
  have labelled (other : String) (value : UInt32) :
      (object.defineLabel other value).state.findLabel? name = some address := by
    rw [defineLabel]
    split
    · exact defined
    · rw [findLabel?] at defined ⊢
      rw [List.lookup_append, defined]
      rfl
  cases operation with
  | edit edited change => cases edited <;> exact defined
  | defineLabel other value => exact labelled other value
  | defineLabelHere other here => exact labelled other _

theorem findLabel?_run (defined : object.findLabel? name = some address)
    (operations : List Operation) : (object.run operations).findLabel? name = some address := by
  induction operations generalizing object with
  | nil => exact defined
  | cons operation rest ih => exact ih (findLabel?_apply defined operation)

/-- A label at the end of a section is its end address. -/
theorem findLabel?_of_defineLabelHere
    (defined : (object.defineLabelHere name kind).answer = .ok address) :
    address = (object.get kind).endAddress ∧
      (object.defineLabelHere name kind).state.findLabel? name = some address := by
  simp only [defineLabelHere, defineLabel] at defined ⊢
  cases found : object.findLabel? name with
  | some other => simp [found, Outcome.map, Except.map] at defined
  | none =>
      simp only [found, Outcome.map, Except.map, Except.ok.injEq] at defined ⊢
      refine ⟨defined.symm, ?_⟩
      rw [findLabel?] at found ⊢
      rw [List.lookup_append, found, ← defined]
      simp

variable {textBase dataBase : UInt32} {operation : Section.Operation} {item : Item}

/-- An item that is pushed while an object is built stands in the built object at the
address that the push answered. -/
theorem standsAt_run {before after : List Operation}
    (movesFirst : MovesFirst (before ++ .edit kind operation :: after))
    (pushes : (((empty textBase dataBase).run before).get kind).Pushes operation item address) :
    (((empty textBase dataBase).run (before ++ .edit kind operation :: after)).get kind).StandsAt
      item address := by
  have wellFormed := ((wellFormed_empty textBase dataBase).run before).sections kind
  obtain ⟨accepted, applied⟩ := pushes.push
  have stands := wellFormed.standsAt_push accepted
  rw [run_append, run_cons]
  refine stands.of_extends ?_
  have edited : (((empty textBase dataBase).run before).apply (.edit kind operation)).get kind =
      ((((empty textBase dataBase).run before).get kind).push item).state := by
    rw [apply, get_set, if_pos rfl, applied]
  rw [← edited]
  exact extends_run (movesFirst.not_moves ⟨rfl, pushes.not_moves⟩)

/-- A label at the end of a section is found in the built object at the address of the
item that is pushed next, as the section is not longer by then. -/
theorem findLabel?_run_eq {before between after : List Operation} {labelled : UInt32}
    (movesFirst : MovesFirst
      (before ++ .defineLabelHere name kind :: between ++ .edit kind operation :: after))
    (defined : (((empty textBase dataBase).run before).defineLabelHere name kind).answer =
      .ok labelled)
    (size : (((empty textBase dataBase).run (before ++ .defineLabelHere name kind ::
      between)).get kind).size = (((empty textBase dataBase).run before).get kind).size)
    (pushes : (((empty textBase dataBase).run (before ++ .defineLabelHere name kind ::
      between)).get kind).Pushes operation item address) :
    ((empty textBase dataBase).run
        (before ++ .defineLabelHere name kind :: between ++ .edit kind operation :: after)).findLabel?
      name = some address := by
  obtain ⟨rfl, found⟩ := findLabel?_of_defineLabelHere defined
  have stay : ∀ later ∈ between, ¬ later.Moves kind := by
    rw [List.append_assoc, List.cons_append] at movesFirst
    intro later member
    exact movesFirst.not_moves rfl later (List.mem_append_left _ member)
  have base : (((empty textBase dataBase).run (before ++ .defineLabelHere name kind ::
      between)).get kind).base = (((empty textBase dataBase).run before).get kind).base := by
    rw [run_append, run_cons]
    refine (extends_run stay).base.trans ?_
    rw [apply, get_defineLabelHere]
  -- Neither base nor size has changed, so the item is pushed where the label points.
  have address_eq : address = (((empty textBase dataBase).run before).get kind).endAddress := by
    rw [(Section.push_of_ok pushes.push.1).1, Section.endAddress, Section.endAddress, size, base]
  rw [run_append, run_append, address_eq]
  exact findLabel?_run (findLabel?_run found between) _

end Object

end RiscvImage
