import Mathlib.Algebra.GroupWithZero.Nat
import RiscvImage.Proofs.Image.StringTable

/-!
# Room for names

A table that runs out of room asks for twice the room it had and for the new name on top.
That this never sets aside much more than three bytes for each byte in use is not said by the
rule: twice the old room could be far more than the table has come to need.  It is not,
because a table only grows when the old room is less than what it then holds.

Room is counted in natural numbers here.  As it stays below a machine word, and as neither of
the two differences on the way is ever negative, this is how a machine counts it too.
-/

namespace RiscvImage.StringTable

/-- How often a table comes by more room while names are added to it. -/
def growths (table : StringTable) : List String → Nat
  | [] => 0
  | name :: names =>
    let next := (table.add name).state
    (if next.capacity = table.capacity then 0 else 1) + next.growths names

/-- The room that a table is to have if there is too little for so many more bytes. -/
def target (table : StringTable) (needed : Nat) : Nat :=
  table.capacity * 2 + needed

/-- There is room for what a table holds, and not for much more than three times as much,
unless it is the room of a new table still.  Offsets reach all of it. -/
structure Roomy (table : StringTable) : Prop where
  enough : table.size ≤ table.capacity
  bounded : table.capacity ≤ max initialCapacity (3 * table.size)
  addressable : table.size < UInt32.size

/-- What is known of a table before and after a name of so many bytes was added as the last one
of some names. -/
structure AddedWithRoom (before after : StringTable) (needed growths : Nat) : Prop where
  /-- The room that is left is no negative number. -/
  left : before.size ≤ before.capacity
  /-- Nor is what is asked for on top of the bytes in use. -/
  asked : before.size ≤ before.target needed
  /-- New room is the bytes in use and what is asked for on top of them. -/
  reserved : after.capacity = before.capacity ∨
    after.capacity = before.size + (before.target needed - before.size)
  enough : after.size ≤ after.capacity
  kept : before.capacity ≤ after.capacity
  /-- If the room changes, it more than doubles. -/
  doubled : after.capacity = before.capacity ∨ 2 * before.capacity < after.capacity
  exponential : initialCapacity * 2 ^ growths ≤ after.capacity
  bounded : after.capacity ≤ max initialCapacity (3 * after.size)
  /-- A machine word can count the room. -/
  word : after.capacity < UInt64.size

variable {table : StringTable}

theorem roomy_empty : empty.Roomy where
  enough := by decide
  bounded := by decide
  addressable := by decide

/-- A table has grown by the name and has the room for it, or it is what it was. -/
theorem add_cases (table : StringTable) (name : String) :
    ((table.add name).state.size = table.size + (serialize [name]).length ∧
      (table.add name).state.size < UInt32.size ∧
      (table.add name).state.capacity = table.grownCapacity (serialize [name]).length) ∨
      (table.add name).state = table := by
  by_cases fits : table.size + (serialize [name]).length < UInt32.size
  · left
    rw [add_eq, if_pos fits]
    dsimp only
    have grown : (table.contents ++ .ofList (serialize [name])).length =
        table.size + (serialize [name]).length := by
      rw [ByteString.length_append, ByteString.length_ofList, size]
    refine ⟨?_, ?_, rfl⟩
    · rw [size, grown]
    · rw [size, grown]
      exact fits
  · right
    rw [add_eq, if_neg fits]

/-- Room that grows more than doubles. -/
theorem grownCapacity_eq_or_lt (table : StringTable) (needed : Nat) :
    table.grownCapacity needed = table.capacity ∨
      2 * table.capacity < table.grownCapacity needed := by
  rw [grownCapacity]
  split
  · right
    omega
  · exact .inl rfl

/-- There is room for so many more bytes, be it the old room or new. -/
theorem Roomy.le_grownCapacity (roomy : table.Roomy) (needed : Nat) :
    table.size + needed ≤ table.grownCapacity needed := by
  have enough := roomy.enough
  rw [grownCapacity]
  split
  · omega
  · omega

/-- The old room counts less than what has made it too small, so that twice the old room and
the new name are no more than three times what the table then holds. -/
theorem Roomy.grownCapacity_le (roomy : table.Roomy) (needed : Nat) :
    table.grownCapacity needed ≤ max initialCapacity (3 * (table.size + needed)) := by
  have bounded := roomy.bounded
  have enough := roomy.enough
  rw [grownCapacity]
  split
  case isTrue outgrown =>
    have old : table.capacity < table.size + needed := by omega
    have tripled : table.capacity * 2 + needed ≤ 3 * (table.size + needed) := by omega
    exact Nat.le_trans tripled (Nat.le_max_right _ _)
  case isFalse => omega

theorem Roomy.size_le_target (roomy : table.Roomy) (needed : Nat) :
    table.size ≤ table.target needed := by
  have enough := roomy.enough
  rw [target]
  omega

/-- A table keeps its room or has what was asked for. -/
theorem Roomy.capacity_add_eq (roomy : table.Roomy) (name : String) :
    (table.add name).state.capacity = table.capacity ∨
      (table.add name).state.capacity =
        table.size + (table.target (serialize [name]).length - table.size) := by
  rcases table.add_cases name with ⟨-, -, capacity⟩ | same
  · rw [capacity, grownCapacity, Nat.add_sub_cancel' (roomy.size_le_target _)]
    split
    · exact .inr rfl
    · exact .inl rfl
  · exact .inl (congrArg StringTable.capacity same)

theorem Roomy.add (roomy : table.Roomy) (name : String) : (table.add name).state.Roomy := by
  rcases table.add_cases name with ⟨size, addressable, capacity⟩ | same
  · constructor
    case enough =>
      rw [size, capacity]
      exact roomy.le_grownCapacity _
    case bounded =>
      rw [size, capacity]
      exact roomy.grownCapacity_le _
    case addressable => exact addressable
  · rw [same]
    exact roomy

theorem capacity_add_eq_or_lt (table : StringTable) (name : String) :
    (table.add name).state.capacity = table.capacity ∨
      2 * table.capacity < (table.add name).state.capacity := by
  rcases table.add_cases name with ⟨-, -, capacity⟩ | same
  · rw [capacity]
    exact table.grownCapacity_eq_or_lt _
  · exact .inl (congrArg StringTable.capacity same)

theorem Roomy.addEach (roomy : table.Roomy) (names : List String) :
    (table.addEach names).2.Roomy := by
  induction names generalizing table with
  | nil => exact roomy
  | cons name names ih =>
      rw [addEach_cons]
      exact ih (roomy.add name)

/-- Room that grows so many times has doubled so many times. -/
theorem capacity_mul_two_pow_growths_le (table : StringTable) (names : List String) :
    table.capacity * 2 ^ table.growths names ≤ (table.addEach names).2.capacity := by
  induction names generalizing table with
  | nil =>
      have same : table.capacity * 2 ^ table.growths [] = (table.addEach []).2.capacity := by
        rw [growths, Nat.pow_zero, Nat.mul_one, addEach]
      exact Nat.le_of_eq same
  | cons name names ih =>
      have later := ih (table.add name).state
      rw [addEach_cons, growths]
      refine Nat.le_trans ?_ later
      rcases table.capacity_add_eq_or_lt name with same | doubled
      · exact Nat.le_of_eq (by rw [if_pos same, Nat.zero_add, same])
      · rw [if_neg (by omega), Nat.pow_add, ← Nat.mul_assoc, Nat.pow_one]
        exact Nat.mul_le_mul_right _ (by omega)

theorem addEach_concat (table : StringTable) (names : List String) (name : String) :
    (table.addEach (names ++ [name])).2 = ((table.addEach names).2.add name).state := by
  induction names generalizing table with
  | nil => rw [List.nil_append, addEach_cons, addEach, addEach]
  | cons first names ih => rw [List.cons_append, addEach_cons, addEach_cons, ih]

/-- Whatever names are added to a new table, refused or not, there is room for it with every
further name, in steps that more than double it, and with no more than three bytes of it for
each byte in use once the first room is used up. -/
theorem addedWithRoom_addEach (names : List String) (name : String) :
    AddedWithRoom (empty.addEach names).2 ((empty.addEach names).2.add name).state
      (serialize [name]).length (empty.growths (names ++ [name])) := by
  have before := roomy_empty.addEach names
  have after := before.add name
  have steps := empty.capacity_mul_two_pow_growths_le (names ++ [name])
  rw [addEach_concat] at steps
  have doubled := (empty.addEach names).2.capacity_add_eq_or_lt name
  have bounded := after.bounded
  have addressable := after.addressable
  refine ⟨before.enough, before.size_le_target _, before.capacity_add_eq name, after.enough, ?kept,
    doubled, steps, bounded, ?word⟩
  case kept => omega
  case word =>
    have first : initialCapacity < UInt64.size := by decide
    have wide : 3 * UInt32.size < UInt64.size := by decide
    omega

example : (empty.addEach [".text", String.ofList (List.replicate 70 'x')]).2.capacity = 199 := by
  decide

end RiscvImage.StringTable
