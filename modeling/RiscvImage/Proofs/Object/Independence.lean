import RiscvImage.Proofs.Object.Reachable
import RiscvImage.Proofs.Section.Bookkeeping

/-!
# The parts of an object do not disturb each other

Each section of an object goes its own way: after any sequence of operations it is what the
operations on it alone have made of it, whatever was done to the other section and to the
labels in between.  So the sections of reachable objects are reachable sections, and what
holds of these holds in every object.

Operations on sections leave the labels as they are, also the labels at the end of the
section that is operated on.
-/

namespace RiscvImage.Object

variable {object : Object}

/-- What an operation does to the section of a kind, if that is the one it is on. -/
def Operation.on? (kind : SectionKind) : Operation → Option Section.Operation
  | .edit edited operation => if edited = kind then some operation else none
  | _ => none

theorem get_apply (object : Object) (operation : Operation) (kind : SectionKind) :
    (object.apply operation).get kind = (object.get kind).run (operation.on? kind).toList := by
  cases operation with
  | edit edited change =>
      rw [apply, get_set, Operation.on?]
      by_cases same : edited = kind
      · subst same
        rw [if_pos rfl, if_pos rfl]
        rfl
      · rw [if_neg (Ne.symm same), if_neg same]
        rfl
  | defineLabel name address => exact object.get_defineLabel name address kind
  | defineLabelHere name here => exact object.get_defineLabelHere name here kind

/-- A section is what the operations on it have made of it. -/
theorem get_run (object : Object) (operations : List Operation) (kind : SectionKind) :
    (object.run operations).get kind =
      (object.get kind).run (operations.filterMap (·.on? kind)) := by
  induction operations generalizing object with
  | nil => rfl
  | cons operation rest ih =>
      have rest_eq : (object.run (operation :: rest)).get kind =
          ((object.apply operation).get kind).run (rest.filterMap (·.on? kind)) := ih _
      rw [rest_eq, get_apply, List.filterMap_cons]
      cases operation.on? kind <;> rfl

/-- The sections of a reachable object are reachable. -/
theorem Reachable.get (reachable : object.Reachable) (kind : SectionKind) :
    (object.get kind).Reachable := by
  obtain ⟨textBase, dataBase, operations, rfl⟩ := reachable
  rw [get_run]
  cases kind with
  | text => exact ⟨.text, textBase, _, rfl⟩
  | data => exact ⟨.data, dataBase, _, rfl⟩

theorem labels_set (object : Object) (kind : SectionKind) (s : Section) :
    (object.set kind s).labels = object.labels := by
  cases kind <;> rfl

/-- Operations on sections do not touch the labels. -/
theorem labels_run_edit (object : Object) (kind : SectionKind)
    (operations : List Section.Operation) :
    (object.run (operations.map (.edit kind))).labels = object.labels := by
  induction operations generalizing object with
  | nil => rfl
  | cons operation rest ih => exact (ih _).trans (object.labels_set kind _)

/-- Of operations that are all on one section, the other section sees none. -/
theorem filterMap_on?_edit (kind other : SectionKind) (operations : List Section.Operation) :
    (operations.map (Operation.edit kind)).filterMap (·.on? other) =
      if other = kind then operations else [] := by
  rw [List.filterMap_map]
  by_cases same : other = kind
  · have all : (fun operation => operation.on? other) ∘ Operation.edit kind = some :=
      funext fun _ => if_pos same.symm
    rw [if_pos same, all, List.filterMap_some]
  · rw [if_neg same]
    exact List.filterMap_eq_nil_iff.mpr fun _ _ => if_neg (Ne.symm same)

/-- Whatever is done to a section, it is sound afterwards; and if it is a section of an
object, the same operations change neither the other section nor the labels there. -/
theorem sections_sound_and_apart (kind : SectionKind) (base : UInt32)
    (operations : List Section.Operation) (object : Object) :
    ((Section.empty kind base).run operations).Sound ∧
      (∀ other, (object.run (operations.map (.edit kind))).get other =
        if other = kind then (object.get kind).run operations else object.get other) ∧
      (object.run (operations.map (.edit kind))).labels = object.labels := by
  refine ⟨?sound, fun other => ?sections, object.labels_run_edit kind operations⟩
  case sound => exact ((Section.wellFormed_empty kind base).run operations).sound
  case sections =>
    rw [get_run, filterMap_on?_edit]
    by_cases same : other = kind
    · rw [if_pos same, if_pos same, same]
    · rw [if_neg same, if_neg same]
      rfl

end RiscvImage.Object
