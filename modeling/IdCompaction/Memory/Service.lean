import IdCompaction.Action
import IdCompaction.Fault
import IdCompaction.Size

/-!
# Memory services

A memory service grants and takes back raw memory on an execution context. It may refuse a request;
it never fails to take back what it granted. Tables and buffers are written against any service, and
a service is what it does to a state `σ`.
-/

namespace IdCompaction

/-- Where a grant begins. -/
abbrev Address := Nat

/-- The size and alignment of a request, in bytes. -/
structure Layout where
  size : Nat
  align : Nat
  deriving DecidableEq

namespace Layout

/-- The size of the largest layout. -/
def largest : Nat := 9223372036854775807

/-- The layout of an array, unless it would be larger than any layout. -/
def array (element : Layout) (length : Nat) : Option Layout :=
  if element.size * length ≤ largest then some ⟨element.size * length, element.align⟩ else none

/-- An array has a layout exactly if its bytes are no more than a layout can have. -/
theorem array_eq_some_iff {element layout : Layout} {length : Nat} :
    element.array length = some layout ↔
      element.size * length ≤ largest ∧ layout = ⟨element.size * length, element.align⟩ := by
  unfold array
  split <;> rename_i h <;> simp [h, eq_comm]

end Layout

/-- What grants and takes back memory. -/
structure MemoryService (σ : Type) where
  /-- Asks for memory. -/
  allocate : Context → Layout → Action AllocError σ Address
  /-- Takes back a grant, on the context and with the layout that it was granted with. -/
  deallocate : Context → Address → Layout → Action Empty σ Unit

/-- A service on a part of a state, as a service on the whole. -/
def MemoryService.within {σ τ : Type} (part : Part σ τ) (service : MemoryService τ) :
    MemoryService σ where
  allocate context layout := (service.allocate context layout).within part
  deallocate context address layout := (service.deallocate context address layout).within part

end IdCompaction
