/-!
# Identifiers

A global ID numbers a node of the full graph and a local ID numbers a node of one batch. Both are
32-bit words. The largest word numbers no node: it marks a vacant slot, and every capacity stops
below it, so no ID of a table is ever mistaken for the mark.
-/

namespace IdCompaction

/-- A global or a local ID. -/
abbrev Id := UInt32

/-- The word that marks a vacant slot. -/
def vacant : Id := 0xFFFFFFFF

/-- Bytes that one ID takes, which is also its alignment. -/
def Id.bytes : Nat := 4

/-- The vacant mark is the last word. -/
theorem vacant_toNat : vacant.toNat = 4294967295 := rfl

/-- A word below the vacant mark is not the vacant mark. -/
theorem ne_vacant_of_lt {id : Id} (h : id.toNat < vacant.toNat) : id ≠ vacant := by
  rintro rfl
  exact Nat.lt_irrefl _ h

end IdCompaction
