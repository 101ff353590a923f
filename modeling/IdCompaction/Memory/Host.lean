import IdCompaction.Memory.Service

/-!
# Host memory

Host memory serves every context. It takes what it hands out from a heap, the allocator of the host,
about which nothing is said here: a heap may refuse any request, may put a grant anywhere and may
use an address again. The host memory counts the bytes and the grants that are out. Empty requests
never reach the heap: they take no memory, are not counted and not reported, and their address is
just their alignment.

A guard may stand in front of a host memory and turn requests away before the memory sees them; a
quota is such a guard.
-/

namespace IdCompaction

/-- An allocator of raw memory, with states `η`. -/
structure Heap (η : Type) where
  /-- Where a new grant begins, or nothing if there is no memory for it. -/
  allocate : Layout → η → Option Address × η
  /-- Takes back a grant. -/
  deallocate : Address → Layout → η → η

/-- What is out: bytes, and grants that are not empty. -/
structure Tally where
  liveBytes : UInt64 := 0
  liveAllocations : UInt64 := 0
  deriving DecidableEq

namespace Tally

/-- The counts with one more grant out. -/
def grant (t : Tally) (layout : Layout) : Tally where
  liveBytes := t.liveBytes + layout.size.toUInt64
  liveAllocations := t.liveAllocations + 1

/-- The counts after one grant came back. -/
def reclaim (t : Tally) (layout : Layout) : Tally where
  liveBytes := t.liveBytes - layout.size.toUInt64
  liveAllocations := t.liveAllocations - 1

end Tally

/-- The memory of the host: what is out, and the heap that it came from. -/
structure HostMemory (η : Type) where
  tally : Tally
  heap : η

namespace HostMemory

variable {η : Type}

/-- A host memory with nothing out. -/
def fresh (heap : η) : HostMemory η := ⟨{}, heap⟩

/-- Grants what the heap has room for. -/
def service (heap : Heap η) : MemoryService (HostMemory η) where
  allocate context layout := fun m =>
    if layout.size = 0 then ⟨m, [], .ok layout.align⟩
    else
      match heap.allocate layout m.heap with
      | (none, left) => ⟨{ m with heap := left }, [], .error ⟨context, layout.size⟩⟩
      | (some address, left) =>
        ⟨⟨m.tally.grant layout, left⟩, [.bufferAllocated context layout.size], .ok address⟩
  deallocate context address layout := fun m =>
    if layout.size = 0 then ⟨m, [], .ok ()⟩
    else
      ⟨⟨m.tally.reclaim layout, heap.deallocate address layout m.heap⟩,
        [.bufferFreed context layout.size], .ok ()⟩

/-- The long form of a host memory shows its counts. -/
def describe (m : HostMemory η) : String :=
  Text.record "SystemMemory"
    [("live_bytes", toString m.tally.liveBytes),
      ("live_allocations", toString m.tally.liveAllocations)]

end HostMemory

/-- A heap that puts one grant after another and never uses an address again: where the next grant
may begin. -/
structure Arena where
  next : Address := 4096

namespace Arena

/-- The first multiple of `align` from `address` on. -/
def alignUp (address align : Nat) : Nat := (address + (align - 1)) / align * align

/-- An arena that has room for every request of less than `limit` bytes, and for no other. -/
def heap (limit : Nat) : Heap Arena where
  allocate layout arena :=
    if limit ≤ layout.size then (none, arena)
    else
      let address := alignUp arena.next layout.align
      (some address, ⟨address + layout.size⟩)
  deallocate _address _layout arena := arena

end Arena

/-- A host memory behind a guard, which keeps a state `ρ` of its own. -/
structure Guarded (ρ η : Type) where
  guard : ρ
  memory : HostMemory η

namespace Guarded

variable {ρ η : Type}

/-- The memory behind the guard. -/
def memoryPart : Part (Guarded ρ η) (HostMemory η) where
  get g := g.memory
  put memory g := { g with memory }

/-- A service that shows each request to a judge first. The judge may look at the memory but changes
only its own state; a request that it refuses never reaches the memory. -/
def service (heap : Heap η)
    (judge : HostMemory η → Context → Layout → ρ → Option AllocError × ρ) :
    MemoryService (Guarded ρ η) where
  allocate context layout := fun g =>
    match judge g.memory context layout g.guard with
    | (some refusal, guard) => ⟨{ g with guard }, [], .error refusal⟩
    | (none, guard) =>
      ((HostMemory.service heap).allocate context layout).within memoryPart { g with guard }
  deallocate context address layout :=
    ((HostMemory.service heap).deallocate context address layout).within memoryPart

end Guarded

/-- Limits on what may be out at once and on how many requests may be made. -/
structure Quota where
  maxBytes : Option Nat := none
  maxCalls : Option Nat := none
  /-- Requests made so far, granted or not. -/
  calls : Nat := 0

namespace Quota

variable {η : Type}

/-- Whether a request of `size` bytes fits, with `live` bytes out. -/
def fits (q : Quota) (live size : Nat) : Bool :=
  q.maxBytes.all (fun most => decide (size ≤ most - live)) &&
    q.maxCalls.all (fun most => decide (q.calls < most))

/-- Counts the request and refuses it if it does not fit. -/
def judge (m : HostMemory η) (context : Context) (layout : Layout) (q : Quota) :
    Option AllocError × Quota :=
  (if q.fits m.tally.liveBytes.toNat layout.size then none else some ⟨context, layout.size⟩,
    { q with calls := q.calls + 1 })

/-- A host memory under a quota. -/
def service (heap : Heap η) : MemoryService (Guarded Quota η) := Guarded.service heap judge

end Quota

end IdCompaction
