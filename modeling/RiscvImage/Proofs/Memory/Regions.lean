import RiscvImage.Memory

/-!
# Regions in address order

A range of addresses is compared with two regions only, the last one that begins
below it and the first one that does not.  For regions in address order that is
as good as comparing it with all of them: the neighbour found is the lowest
region that the range meets.
-/

namespace RiscvImage

namespace Region

/-- Whether the region meets the range of `size` bytes at `base`. -/
def meets (region : Region) (base size : UInt32) : Bool :=
  region.base.toNat < base.toNat + size.toNat && base.toNat < region.stop

/-- The first region ends before the second begins. -/
def Before (first second : Region) : Prop :=
  first.stop ≤ second.base.toNat

/-- Two regions without a common address: one of them comes before the other. -/
def Apart (first second : Region) : Prop :=
  first.Before second ∨ second.Before first

/-- A region that a machine can hold: it is not empty, its length is a word, and
it ends within the address space. -/
structure WellFormed (region : Region) : Prop where
  nonempty : 0 < region.length
  short : region.length < addressSpace
  inside : region.stop ≤ addressSpace

theorem base_le_stop (region : Region) : region.base.toNat ≤ region.stop :=
  Nat.le_add_right _ _

theorem WellFormed.base_lt_stop {region : Region} (wellFormed : region.WellFormed) :
    region.base.toNat < region.stop :=
  Nat.lt_add_of_pos_right wellFormed.nonempty

/-- The length of a well-formed region survives being cut down to a word. -/
theorem WellFormed.toNat_size {region : Region} (wellFormed : region.WellFormed) :
    region.size.toNat = region.length :=
  UInt32.toNat_ofNat_of_lt wellFormed.short

theorem meets_eq_false_iff {first second : Region} {size : UInt32}
    (length : second.length = size.toNat) :
    first.meets second.base size = false ↔ first.Apart second := by
  rw [meets, Bool.and_eq_false_iff, decide_eq_false_iff_not, decide_eq_false_iff_not]
  simp only [Apart, Before, stop, length]
  omega

/-- Below a range, only the last region can reach into it. -/
theorem find?_meets_of_below {regions : List Region} (ordered : regions.Pairwise Before)
    {base : UInt32} (size : UInt32) (below : ∀ region ∈ regions, region.base.toNat < base.toNat) :
    regions.find? (·.meets base size) =
      regions.getLast?.filter fun region => base.toNat < region.stop := by
  induction regions with
  | nil => rfl
  | cons region rest ih =>
      obtain ⟨before, orderedRest⟩ := List.pairwise_cons.mp ordered
      have belowRest : ∀ later ∈ rest, later.base.toNat < base.toNat := by
        intro later member
        exact below later (List.mem_cons_of_mem region member)
      have begins : region.base.toNat < base.toNat + size.toNat :=
        Nat.lt_of_lt_of_le (below region List.mem_cons_self) (Nat.le_add_right _ _)
      cases rest with
      | nil =>
          by_cases reaches : base.toNat < region.stop <;>
            simp [meets, begins, reaches, Option.filter_some]
      | cons next rest =>
          have ends : region.stop ≤ next.base.toNat := before next List.mem_cons_self
          have short : ¬ base.toNat < region.stop := by
            have := belowRest next List.mem_cons_self
            omega
          rw [List.find?_cons_of_neg (by simp [meets, short]), ih orderedRest belowRest,
            List.getLast?_cons_cons]

/-- From the beginning of a range on, only the first region can begin in it. -/
theorem find?_meets_of_from {regions : List Region} (ordered : regions.Pairwise Before)
    {base : UInt32} (size : UInt32) (wellFormed : ∀ region ∈ regions, region.WellFormed)
    (begin : ∀ region ∈ regions, base.toNat ≤ region.base.toNat) :
    regions.find? (·.meets base size) =
      regions.head?.filter fun region => region.base.toNat < base.toNat + size.toNat := by
  cases regions with
  | nil => rfl
  | cons region rest =>
      have reaches : base.toNat < region.stop :=
        Nat.lt_of_le_of_lt (begin region List.mem_cons_self)
          (wellFormed region List.mem_cons_self).base_lt_stop
      by_cases begins : region.base.toNat < base.toNat + size.toNat
      · simp [meets, begins, reaches, Option.filter_some]
      · have later : rest.find? (·.meets base size) = none := by
          rw [List.find?_eq_none]
          intro next member
          have before : region.stop ≤ next.base.toNat :=
            (List.pairwise_cons.mp ordered).1 next member
          have ordered := region.base_le_stop
          simp only [meets, Bool.and_eq_true, decide_eq_true_eq]
          omega
        rw [List.find?_cons_of_neg (by simp [meets, begins]), later, List.head?_cons,
          Option.filter_some_neg (by simpa using begins)]

end Region

namespace Memory

variable {memory : Memory}

/-- The regions below an address and those from it on are all regions, in order. -/
theorem below_append_fromAddress (memory : Memory) (address : UInt32) :
    memory.below address ++ memory.fromAddress address = memory.regions :=
  List.takeWhile_append_dropWhile

theorem base_lt_of_mem_below {address : UInt32} {region : Region}
    (member : region ∈ memory.below address) : region.base.toNat < address.toNat := by
  have passes := List.all_eq_true.mp
    (List.all_takeWhile (p := fun region : Region => decide (region.base < address))) region member
  exact UInt32.lt_iff_toNat_lt.mp (of_decide_eq_true passes)

theorem le_base_of_mem_fromAddress (ordered : memory.regions.Pairwise Region.Before)
    {address : UInt32} {region : Region} (member : region ∈ memory.fromAddress address) :
    address.toNat ≤ region.base.toNat := by
  unfold fromAddress at member
  generalize memory.regions = regions at ordered member
  induction regions with
  | nil => simp at member
  | cons first rest ih =>
      obtain ⟨before, orderedRest⟩ := List.pairwise_cons.mp ordered
      by_cases low : first.base < address
      · simp only [List.dropWhile_cons, low, decide_true, if_true] at member
        exact ih orderedRest member
      · simp only [List.dropWhile_cons, low, decide_false, Bool.false_eq_true, if_false] at member
        have notLow := mt UInt32.lt_iff_toNat_lt.mpr low
        rcases List.mem_cons.mp member with rfl | later
        · omega
        · have ends : first.stop ≤ region.base.toNat := before region later
          have := first.base_le_stop
          omega

/-- The neighbour of a range is the lowest region that the range meets. -/
theorem neighbour?_eq_find? (ordered : memory.regions.Pairwise Region.Before)
    (wellFormed : ∀ region ∈ memory.regions, region.WellFormed) (base size : UInt32) :
    memory.neighbour? base size = memory.regions.find? (·.meets base size) := by
  have parts := memory.below_append_fromAddress base
  have orderedParts := ordered
  rw [← parts] at orderedParts
  obtain ⟨orderedBelow, orderedFrom, -⟩ := List.pairwise_append.mp orderedParts
  have wellFormedFrom : ∀ region ∈ memory.fromAddress base, region.WellFormed := by
    intro region member
    exact wellFormed region (parts ▸ List.mem_append_right _ member)
  have foundBelow := Region.find?_meets_of_below orderedBelow size
    fun _ => base_lt_of_mem_below
  have foundFrom := Region.find?_meets_of_from orderedFrom size wellFormedFrom
    fun _ => le_base_of_mem_fromAddress ordered
  rw [neighbour?, ← foundBelow, ← foundFrom, ← parts, List.find?_append]
  cases (memory.below base).find? (·.meets base size) <;> rfl

/-- A range without a neighbour meets no region at all. -/
theorem neighbour?_eq_none_iff (ordered : memory.regions.Pairwise Region.Before)
    (wellFormed : ∀ region ∈ memory.regions, region.WellFormed) {region : Region} {size : UInt32}
    (length : region.length = size.toNat) :
    memory.neighbour? region.base size = none ↔
      ∀ other ∈ memory.regions, other.Apart region := by
  rw [neighbour?_eq_find? ordered wellFormed, List.find?_eq_none]
  refine forall_congr' fun other => forall_congr' fun _ => ?_
  rw [Bool.not_eq_true, Region.meets_eq_false_iff length]

end Memory

end RiscvImage
