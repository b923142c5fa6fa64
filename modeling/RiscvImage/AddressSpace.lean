/-!
# The address space

Addresses and file offsets are 32-bit words.  Sums of them are taken in the
natural numbers, so that a range is seen to leave the address space before its
end wraps around.
-/

namespace RiscvImage

/-- The number of addresses, and so one past the highest address. -/
def addressSpace : Nat :=
  0x100000000

end RiscvImage
