import Mathlib.Order.Bounds.Basic
import RiscvImage.Proofs.Section.Padding

/-!
# Aligned sections

Alignment appends the fewest bytes that take the end of a section to a multiple of a power
of two.  Every power of two that is a word divides the size of the address space, so it does
no harm that the end address wraps around, and padding never leaves the address space.  It
fails for one reason only: a section that begins at address zero cannot fill all of the
address space, since its size is a word.
-/

namespace RiscvImage

/-- The distance to the next multiple is the least that leads to one. -/
theorem isLeast_dvd_add {step : Nat} (pos : 0 < step) (stop : Nat) :
    IsLeast { padding | step ∣ stop + padding }
      (if stop % step = 0 then 0 else step - stop % step) := by
  have remainder := Nat.mod_lt stop pos
  have parts := Nat.div_add_mod stop step
  split
  case isTrue aligned =>
    exact ⟨Nat.dvd_of_mod_eq_zero aligned, fun padding _ => Nat.zero_le padding⟩
  case isFalse misaligned =>
    constructor
    · have next : stop + (step - stop % step) = step * (stop / step + 1) := by
        rw [Nat.mul_add_one]
        omega
      exact ⟨_, next⟩
    · intro padding aligned
      have split : stop + padding = step * (stop / step) + (stop % step + padding) := by omega
      have rest : step ∣ stop % step + padding := by
        have multiple : step ∣ stop + padding := aligned
        rwa [split, Nat.dvd_add_right (Nat.dvd_mul_right _ _)] at multiple
      have long := Nat.le_of_dvd (by omega) rest
      omega

namespace Section

variable {s : Section} {alignment : UInt32}

theorem isPowerOfTwo_iff {number : UInt32} :
    isPowerOfTwo number = true ↔ ∃ exponent, number.toNat = 2 ^ exponent := by
  rw [isPowerOfTwo, beq_iff_eq, Nat.one_shiftLeft]
  constructor
  · exact fun same => ⟨_, same.symm⟩
  · rintro ⟨exponent, power⟩
    rw [power, Nat.log2_two_pow]

/-- A power of two that is a word divides the size of the address space. -/
theorem dvd_addressSpace {exponent : Nat} (power : alignment.toNat = 2 ^ exponent) :
    alignment.toNat ∣ addressSpace := by
  have short : 2 ^ exponent < 2 ^ 32 := power ▸ alignment.toNat_lt
  rw [power]
  exact Nat.pow_dvd_pow 2 (Nat.le_of_lt ((Nat.pow_lt_pow_iff_right (by decide)).mp short))

/-- The padding to a power of two is the least that takes the end to a multiple of it, also
if the end wraps around. -/
theorem isLeast_paddingTo {exponent : Nat} (power : alignment.toNat = 2 ^ exponent)
    (s : Section) :
    IsLeast { padding | alignment.toNat ∣ s.base.toNat + s.size.toNat + padding }
      (s.paddingTo alignment).toNat := by
  have pos : 0 < alignment.toNat := power ▸ Nat.two_pow_pos exponent
  have misalignment : (s.endAddress % alignment).toNat =
      (s.base.toNat + s.size.toNat) % alignment.toNat := by
    rw [UInt32.toNat_mod, endAddress, UInt32.toNat_add]
    exact Nat.mod_mod_of_dvd _ (dvd_addressSpace power)
  have value : (s.paddingTo alignment).toNat =
      if (s.base.toNat + s.size.toNat) % alignment.toNat = 0 then 0
      else alignment.toNat - (s.base.toNat + s.size.toNat) % alignment.toNat := by
    have aligned : s.endAddress % alignment = 0 ↔
        (s.base.toNat + s.size.toNat) % alignment.toNat = 0 := by
      rw [← misalignment]
      exact UInt32.toNat_inj.symm
    have le : s.endAddress % alignment ≤ alignment := by
      rw [UInt32.le_iff_toNat_le, UInt32.toNat_mod]
      exact Nat.le_of_lt (Nat.mod_lt _ pos)
    simp only [paddingTo, aligned]
    split
    · rfl
    · rw [UInt32.toNat_sub_of_le _ _ le, misalignment]
  rw [value]
  exact isLeast_dvd_add pos _

/-- The least padding is less than the alignment. -/
theorem toNat_paddingTo_lt {exponent : Nat} (power : alignment.toNat = 2 ^ exponent)
    (s : Section) : (s.paddingTo alignment).toNat < alignment.toNat := by
  have pos : 0 < alignment.toNat := power ▸ Nat.two_pow_pos exponent
  have least := isLeast_paddingTo power s
  refine Nat.lt_of_not_le fun long => ?_
  have less : alignment.toNat ∣
      s.base.toNat + s.size.toNat + ((s.paddingTo alignment).toNat - alignment.toNat) := by
    rw [← Nat.add_sub_assoc long]
    exact Nat.dvd_sub least.1 (Nat.dvd_refl _)
  have := least.2 less
  omega

/-- Padding that has a word among it leads to a multiple of a word. -/
theorem four_dvd_of_paddingTo {exponent : Nat} (power : alignment.toNat = 2 ^ exponent)
    (s : Section) (words : 4 ≤ (s.paddingTo alignment).toNat) :
    4 ∣ s.base.toNat + s.size.toNat + (s.paddingTo alignment).toNat := by
  have long : 2 ^ 2 < 2 ^ exponent :=
    power ▸ Nat.lt_of_le_of_lt words (toNat_paddingTo_lt power s)
  have exponents : 2 ≤ exponent := Nat.le_of_lt ((Nat.pow_lt_pow_iff_right (by decide)).mp long)
  have four : 4 ∣ alignment.toNat := power ▸ Nat.pow_dvd_pow 2 exponents
  exact Nat.dvd_trans four (isLeast_paddingTo power s).1

/-- Padding does not leave the address space. -/
theorem WellFormed.stop_add_paddingTo_le (wellFormed : s.WellFormed) {exponent : Nat}
    (power : alignment.toNat = 2 ^ exponent) :
    s.base.toNat + s.size.toNat + (s.paddingTo alignment).toNat ≤ addressSpace := by
  have inside := wellFormed.inside
  have space : alignment.toNat ∣
      s.base.toNat + s.size.toNat + (addressSpace - (s.base.toNat + s.size.toNat)) := by
    rw [Nat.add_sub_cancel' inside]
    exact dvd_addressSpace power
  have least := (isLeast_paddingTo power s).2 space
  omega

theorem pushAlign_eq_pad {exponent : Nat} (power : alignment.toNat = 2 ^ exponent)
    (s : Section) (fill : Fill) :
    s.pushAlign alignment fill =
      (s.pad fill (s.paddingTo alignment)).map fun _ => s.paddingTo alignment := by
  rw [pushAlign, if_pos (isPowerOfTwo_iff.mpr ⟨exponent, power⟩)]
  cases fill <;> rfl

theorem pushAlign_of_not_power (none : ∀ exponent, alignment.toNat ≠ 2 ^ exponent)
    (s : Section) (fill : Fill) :
    s.pushAlign alignment fill = ⟨.error (.invalidAlignment alignment), s⟩ := by
  rw [pushAlign, if_neg fun power => (isPowerOfTwo_iff.mp power).elim none]

/-- Alignment to a power of two has two outcomes. -/
theorem WellFormed.pushAlign_cases (wellFormed : s.WellFormed) {exponent : Nat}
    (power : alignment.toNat = 2 ^ exponent) (fill : Fill) :
    (s.size.toNat + (s.paddingTo alignment).toNat < addressSpace ∧
      s.pushAlign alignment fill = ⟨.ok (s.paddingTo alignment),
        s.extend (s.paddingTo alignment) (fill.items (s.paddingTo alignment))⟩) ∨
    (s.size.toNat + (s.paddingTo alignment).toNat = addressSpace ∧ s.base = 0 ∧
      s.pushAlign alignment fill = ⟨.error (.sectionOverflow s.kind),
        s.extend (fill.remnant (s.paddingTo alignment))
          ((Fill.byte 0).stretch (fill.remnant (s.paddingTo alignment)))⟩) := by
  have inside := wellFormed.stop_add_paddingTo_le power
  rw [pushAlign_eq_pad power]
  by_cases fits : s.size.toNat + (s.paddingTo alignment).toNat < addressSpace
  · refine .inl ⟨fits, ?_⟩
    rw [pad_of_fits fits (by omega)]
    rfl
  · have start : s.base.toNat = (0 : UInt32).toNat := by
      rw [UInt32.toNat_zero]
      omega
    have whole : s.size.toNat + (s.paddingTo alignment).toNat = addressSpace := by omega
    have base : s.base = 0 := UInt32.toNat_inj.mp start
    refine .inr ⟨whole, base, ?_⟩
    rw [pad_of_overflow whole base]
    rfl

/-- A section that ends at a multiple needs no padding to it. -/
theorem pushAlign_of_aligned {exponent : Nat} (power : alignment.toNat = 2 ^ exponent)
    (aligned : alignment.toNat ∣ s.base.toNat + s.size.toNat) (fill : Fill) :
    s.pushAlign alignment fill = ⟨.ok 0, s⟩ := by
  have none : s.paddingTo alignment = 0 :=
    UInt32.toNat_inj.mp (Nat.le_zero.mp ((isLeast_paddingTo power s).2 aligned))
  have nothing (fill : Fill) : s.pushPadding fill 0 = ⟨.ok (), s⟩ := if_pos rfl
  rw [pushAlign_eq_pad power, none]
  cases fill with
  | byte value =>
      rw [pad, nothing]
      rfl
  | nop =>
      rw [pad, show (0 : UInt32) % 4 = 0 from rfl, nothing, Outcome.andThen_ok,
        show (0 : UInt32) - 0 = 0 from rfl, nothing]
      rfl

/-- What a section is after padding: it has the bytes of the padding behind its own, and
the words among them stand at multiples of a word. -/
structure IsPadded (s : Section) (fill : Fill) (padding : UInt32) (padded : Section) : Prop where
  kind : padded.kind = s.kind
  base : padded.base = s.base
  size : padded.size.toNat = s.size.toNat + padding.toNat
  contents : padded.contents = s.contents ++ fill.contents padding.toNat
  words : ∃ added, padded.items = s.items ++ added ∧
    ∀ front size rest, added = front ++ .padding .nop size :: rest →
      4 ∣ size.toNat ∧ ∀ word < size.toNat / 4,
        4 ∣ s.base.toNat + s.size.toNat + (front.map Item.length).sum + 4 * word

theorem isPadded_extend {exponent : Nat} (power : alignment.toNat = 2 ^ exponent)
    (fits : s.size.toNat + (s.paddingTo alignment).toNat < addressSpace) (fill : Fill) :
    s.IsPadded fill (s.paddingTo alignment)
      (s.extend (s.paddingTo alignment) (fill.items (s.paddingTo alignment))) where
  kind := rfl
  base := rfl
  size := toNat_size_extend fits _
  contents := by rw [contents_extend, Fill.concat_contents_items]
  words := by
    refine ⟨_, rfl, fun front size rest split => ?_⟩
    obtain ⟨before, rfl⟩ := Fill.eq_of_items_eq_append split
    have aligned := four_dvd_of_paddingTo power s
    rw [before, Fill.toNat_sub_mod_four]
    constructor
    · omega
    · intro word inside
      omega

/-- Alignment to a power of two appends the least padding that takes the end of the section
to a multiple, whatever the fill.  Only a section that begins at address zero can fail to
take it, by filling the whole address space.  Afterwards the section is aligned to every
smaller power of two too. -/
theorem pushAlign_pads_least (reachable : s.Reachable) {exponent : Nat}
    (power : alignment.toNat = 2 ^ exponent) (fill : Fill) :
    ∃ padding : UInt32,
      IsLeast { bytes | alignment.toNat ∣ s.base.toNat + s.size.toNat + bytes } padding.toNat ∧
      (s.size.toNat + padding.toNat = addressSpace → s.base = 0 ∧
        (s.pushAlign alignment fill).answer = .error (.sectionOverflow s.kind)) ∧
      (s.size.toNat + padding.toNat ≠ addressSpace →
        (s.pushAlign alignment fill).answer = .ok padding ∧
        s.IsPadded fill padding (s.pushAlign alignment fill).state ∧
        ∀ (divisor : UInt32) (power : Nat) (other : Fill),
          divisor.toNat = 2 ^ power → divisor.toNat ∣ alignment.toNat →
            (s.pushAlign alignment fill).state.pushAlign divisor other =
              ⟨.ok 0, (s.pushAlign alignment fill).state⟩) := by
  have least := isLeast_paddingTo power s
  refine ⟨s.paddingTo alignment, least, ?_⟩
  rcases reachable.wellFormed.pushAlign_cases power fill with
    ⟨fits, outcome⟩ | ⟨whole, base, outcome⟩
  case inl =>
    have padded := isPadded_extend power fits fill
    refine ⟨fun whole => absurd whole (Nat.ne_of_lt fits), fun _ => ?_⟩
    rw [outcome]
    refine ⟨rfl, padded, fun divisor power other isPower divides => ?_⟩
    have aligned : divisor.toNat ∣ s.base.toNat + s.size.toNat + (s.paddingTo alignment).toNat :=
      Nat.dvd_trans divides least.1
    refine pushAlign_of_aligned isPower ?_ other
    rwa [padded.base, padded.size, ← Nat.add_assoc]
  case inr =>
    refine ⟨fun _ => ?_, fun short => absurd whole short⟩
    rw [outcome]
    exact ⟨base, rfl⟩

/-- Two bytes are padded with instructions to a multiple of eight, and are aligned to four
from then on. -/
theorem pushAlign_pads_least_pair :
    let pair := (empty .text 0x1000).run [.pushBytes (.ofList [0xff, 0xff])]
    pair.Reachable ∧ (8 : UInt32).toNat = 2 ^ 3 ∧
      (pair.pushAlign 8 .nop).answer = .ok 6 ∧
      (pair.pushAlign 8 .nop).state.size = 8 ∧
      (pair.pushAlign 8 .nop).state.contents =
        .ofList [0xff, 0xff, 0, 0, 0x13, 0, 0, 0] ∧
      (pair.pushAlign 8 .nop).state.pushAlign 4 (.byte 9) =
        ⟨.ok 0, (pair.pushAlign 8 .nop).state⟩ := by
  intro pair
  have reachable : pair.Reachable := ⟨.text, 0x1000, _, rfl⟩
  have power : (8 : UInt32).toNat = 2 ^ 3 := rfl
  obtain ⟨padding, least, -, fits⟩ := pushAlign_pads_least reachable power .nop
  have six : padding = 6 := by
    have expected := isLeast_dvd_add (by decide : 0 < 8) 0x1002
    exact UInt32.toNat_inj.mp (least.unique expected)
  obtain ⟨answer, padded, again⟩ := fits (by rw [six]; decide)
  rw [six] at answer padded
  refine ⟨reachable, power, answer, UInt32.toNat_inj.mp padded.size, ?_,
    again 4 2 (.byte 9) rfl (by decide)⟩
  rw [padded.contents]
  ext1
  rfl

/-- A refused alignment leaves the section as it was, but for one case: of padding with
instructions that begins with zero bytes and would fill the whole address space, the zero
bytes stay. -/
theorem pushAlign_error_unchanged_iff (reachable : s.Reachable) {fill : Fill}
    {error : ObjectError} (refused : (s.pushAlign alignment fill).answer = .error error) :
    ((s.pushAlign alignment fill).state = s ↔
      error = .invalidAlignment alignment ∨ fill ≠ .nop ∨ s.size.toNat % 4 = 0 ∨
        addressSpace < s.size.toNat + 4) ∧
    ((s.pushAlign alignment fill).state ≠ s → s.base = 0 ∧ ∃ zeros : UInt32,
      zeros.toNat < 4 ∧ (s.size.toNat + zeros.toNat) % 4 = 0 ∧
        (s.pushAlign alignment fill).state =
          s.extend zeros [.padding (.byte 0) zeros]) := by
  by_cases isPower : ∃ exponent, alignment.toNat = 2 ^ exponent
  case neg =>
    rw [pushAlign_of_not_power (not_exists.mp isPower)] at refused ⊢
    have invalid := (Except.error.inj refused).symm
    exact ⟨iff_of_true rfl (.inl invalid), fun changed => absurd rfl changed⟩
  obtain ⟨exponent, power⟩ := isPower
  rcases reachable.wellFormed.pushAlign_cases power fill with ⟨_, outcome⟩ | ⟨whole, base, outcome⟩
  case inl =>
    rw [outcome] at refused
    contradiction
  case inr =>
    rw [outcome] at refused ⊢
    have other : error ≠ .invalidAlignment alignment := by
      rintro rfl
      cases refused
    have space : addressSpace = 2 ^ 32 := rfl
    have unchanged : s.extend (fill.remnant (s.paddingTo alignment))
        ((Fill.byte 0).stretch (fill.remnant (s.paddingTo alignment))) = s ↔ _ :=
      extend_stretch_eq_self_iff
    constructor
    case left =>
      have zeros : (s.paddingTo alignment).toNat % 4 = 0 ↔ s.size.toNat % 4 = 0 := by omega
      have short : (s.paddingTo alignment).toNat < 4 ↔ addressSpace < s.size.toNat + 4 := by
        omega
      rw [unchanged, Fill.remnant_eq_zero_iff, zeros, short]
      exact ⟨.inr, fun unchanged => unchanged.resolve_left other⟩
    case right =>
      intro changed
      have some := mt unchanged.mpr changed
      have zeros := Fill.toNat_remnant some
      refine ⟨base, fill.remnant (s.paddingTo alignment), by omega, by omega, ?_⟩
      rw [Fill.stretch, if_neg some]

/-- A section that takes up all but five bytes of the address space. -/
def nearlyFull : Section :=
  (empty .text 0).run [.pushZero 0xfffffffb]

theorem answer_pushAlign_nearlyFull :
    (nearlyFull.pushAlign 8 .nop).answer = .error (.sectionOverflow .text) :=
  rfl

/-- A single zero byte stays of five bytes of padding that are refused. -/
theorem pushAlign_error_unchanged_iff_nearlyFull :
    nearlyFull.Reachable ∧
      (nearlyFull.pushAlign 8 .nop).answer = .error (.sectionOverflow .text) ∧
      (nearlyFull.pushAlign 8 .nop).state ≠ nearlyFull ∧
      ∃ zeros : UInt32, zeros.toNat < 4 ∧ (nearlyFull.size.toNat + zeros.toNat) % 4 = 0 ∧
        (nearlyFull.pushAlign 8 .nop).state =
          nearlyFull.extend zeros [.padding (.byte 0) zeros] := by
  have reachable : nearlyFull.Reachable := ⟨.text, 0, _, rfl⟩
  obtain ⟨unchanged, left⟩ := pushAlign_error_unchanged_iff reachable answer_pushAlign_nearlyFull
  have changed := mt unchanged.mp (by decide)
  exact ⟨reachable, answer_pushAlign_nearlyFull, changed, (left changed).2⟩

/-- A refused alignment can change the items and the size of a section. -/
theorem pushAlign_error_not_atomic :
    ∃ (s : Section) (alignment : UInt32) (fill : Fill) (error : ObjectError), s.Reachable ∧
      (s.pushAlign alignment fill).answer = .error error ∧
      (s.pushAlign alignment fill).state.items ≠ s.items ∧
      (s.pushAlign alignment fill).state.size ≠ s.size :=
  ⟨nearlyFull, 8, .nop, .sectionOverflow .text, ⟨.text, 0, _, rfl⟩, answer_pushAlign_nearlyFull,
    by decide, by decide⟩

end Section

end RiscvImage
