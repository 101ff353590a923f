import IdCompaction.Memory.Host
import IdCompaction.Proofs.Loop
import Mathlib.Algebra.GroupWithZero.Nat
import Mathlib.Data.List.Count

/-!
# Ledgers

A ledger stands in front of a memory service. It notes every grant that was given and every grant
that came back, in order, and it keeps the names of the elements that were let go. What the service
answers is not changed by it.

The services of interest count what is out. A host memory does, over every heap, and so does a host
memory behind a guard: what the guard refuses never reaches the counts. Whatever such a service
refuses and wherever its grants lie, its counts are the balance of the ledger, modulo the size of a
word; a count that fits a word is the balance itself.
-/

namespace IdCompaction

variable {σ ν : Type}

/-- Memory that was handed out: where, and what was asked for. -/
structure Grant where
  context : Context
  address : Address
  layout : Layout
  deriving DecidableEq

/-- Memory that changed hands. -/
inductive Transfer
  | granted (grant : Grant)
  | returned (grant : Grant)
  deriving DecidableEq

/-- The grant that a transfer gives. -/
def Transfer.granted? : Transfer → Option Grant
  | .granted grant => some grant
  | .returned _ => none

/-- The grant that a transfer brings back. -/
def Transfer.returned? : Transfer → Option Grant
  | .granted _ => none
  | .returned grant => some grant

/-- What a grant of a layout adds to the number of grants: nothing, if it is empty. -/
def Layout.weight (layout : Layout) : UInt64 := if layout.size = 0 then 0 else 1

namespace Tally

/-- The counts after a request was granted: an empty grant is not counted. -/
def add (t : Tally) (layout : Layout) : Tally := if layout.size = 0 then t else t.grant layout

/-- The counts after a grant came back. -/
def remove (t : Tally) (layout : Layout) : Tally :=
  if layout.size = 0 then t else t.reclaim layout

/-- A grant adds its bytes and its weight to the counts. -/
theorem counts_add (t : Tally) (layout : Layout) :
    (t.add layout).liveBytes = t.liveBytes + layout.size.toUInt64 ∧
      (t.add layout).liveAllocations = t.liveAllocations + layout.weight := by
  by_cases hzero : layout.size = 0 <;> simp [add, grant, Layout.weight, hzero]

/-- A grant that comes back takes its bytes and its weight off the counts. -/
theorem counts_remove (t : Tally) (layout : Layout) :
    (t.remove layout).liveBytes = t.liveBytes - layout.size.toUInt64 ∧
      (t.remove layout).liveAllocations = t.liveAllocations - layout.weight := by
  by_cases hzero : layout.size = 0 <;> simp [remove, reclaim, Layout.weight, hzero]

/-- A grant that comes back leaves the counts as they were before it. -/
theorem remove_add (t : Tally) (layout : Layout) : (t.add layout).remove layout = t := by
  by_cases hzero : layout.size = 0 <;> simp [add, remove, grant, reclaim, hzero]

/-- Grants may come back in any order. -/
theorem remove_comm (t : Tally) (first second : Layout) :
    (t.remove first).remove second = (t.remove second).remove first := by
  have hsub (a b c : UInt64) : a - b - c = a - c - b := by grind
  by_cases hfirst : first.size = 0 <;> by_cases hsecond : second.size = 0 <;>
    simp [remove, reclaim, hfirst, hsecond, hsub]

end Tally

namespace Grant

/-- The bytes of some grants. -/
def bytes (grants : List Grant) : Nat := (grants.map fun grant => grant.layout.size).sum

/-- How many grants are not empty. -/
def occupied (grants : List Grant) : Nat := grants.countP fun grant => grant.layout.size != 0

/-- The bytes of more grants add up. -/
theorem bytes_append (first second : List Grant) :
    bytes (first ++ second) = bytes first + bytes second := by
  simp [bytes]

/-- The numbers of more grants add up. -/
theorem occupied_append (first second : List Grant) :
    occupied (first ++ second) = occupied first + occupied second :=
  List.countP_append

/-- The order of grants does not matter to their bytes. -/
theorem bytes_perm {first second : List Grant} (h : first.Perm second) :
    bytes first = bytes second :=
  (h.map _).sum_nat

/-- Nor does it matter to their number. -/
theorem occupied_perm {first second : List Grant} (h : first.Perm second) :
    occupied first = occupied second :=
  h.countP_eq _

/-- One more grant adds its bytes, modulo the size of a word. -/
theorem toUInt64_bytes_concat (grants : List Grant) (grant : Grant) :
    (bytes (grants ++ [grant])).toUInt64 =
      (bytes grants).toUInt64 + grant.layout.size.toUInt64 := by
  rw [bytes_append]
  simp [bytes, Nat.toUInt64_eq, UInt64.ofNat_add]

/-- One more grant adds its weight. -/
theorem toUInt64_occupied_concat (grants : List Grant) (grant : Grant) :
    (occupied (grants ++ [grant])).toUInt64 = (occupied grants).toUInt64 + grant.layout.weight := by
  rw [occupied_append]
  by_cases hzero : grant.layout.size = 0 <;>
    simp [occupied, Layout.weight, hzero, Nat.toUInt64_eq, UInt64.ofNat_add]

/-- A grant that is not empty has a byte at least. -/
theorem occupied_le_bytes (grants : List Grant) : occupied grants ≤ bytes grants := by
  induction grants with
  | nil => exact Nat.zero_le 0
  | cons grant rest ih =>
    simp only [occupied, bytes, List.countP_cons, List.map_cons, List.sum_cons] at ih ⊢
    split
    · next hoccupied =>
      have hpos : grant.layout.size ≠ 0 := by simpa using hoccupied
      omega
    · omega

end Grant

/-- A service's state with what passed through the service. -/
structure Ledger (σ ν : Type) where
  memory : σ
  transfers : List Transfer := []
  /-- The names of the elements that were let go. -/
  dropped : List ν := []

namespace Ledger

/-- The grants that were given, first to last. -/
def granted (ledger : Ledger σ ν) : List Grant := ledger.transfers.filterMap Transfer.granted?

/-- The grants that came back, first to last. -/
def returned (ledger : Ledger σ ν) : List Grant := ledger.transfers.filterMap Transfer.returned?

/-- The ledger after one more transfer. -/
def note (transfer : Transfer) (ledger : Ledger σ ν) : Ledger σ ν :=
  { ledger with transfers := ledger.transfers ++ [transfer] }

/-- The service's state in a ledger. -/
def memoryPart : Part (Ledger σ ν) σ where
  get ledger := ledger.memory
  put memory ledger := { ledger with memory }

/-- A grant is noted behind those before it. -/
@[simp] theorem granted_note_granted (ledger : Ledger σ ν) (grant : Grant) :
    (ledger.note (.granted grant)).granted = ledger.granted ++ [grant] := by
  simp [granted, note, Transfer.granted?]

/-- A return is not noted among the grants. -/
@[simp] theorem granted_note_returned (ledger : Ledger σ ν) (grant : Grant) :
    (ledger.note (.returned grant)).granted = ledger.granted := by
  simp [granted, note, Transfer.granted?]

/-- A grant is not noted among the returns. -/
@[simp] theorem returned_note_granted (ledger : Ledger σ ν) (grant : Grant) :
    (ledger.note (.granted grant)).returned = ledger.returned := by
  simp [returned, note, Transfer.returned?]

/-- A return is noted behind those before it. -/
@[simp] theorem returned_note_returned (ledger : Ledger σ ν) (grant : Grant) :
    (ledger.note (.returned grant)).returned = ledger.returned ++ [grant] := by
  simp [returned, note, Transfer.returned?]

end Ledger

/-- The service with a ledger kept in front of it. -/
def MemoryService.recorded (service : MemoryService σ) : MemoryService (Ledger σ ν) where
  allocate context layout := do
    let address ← (service.allocate context layout).within Ledger.memoryPart
    Action.modify (Ledger.note (.granted ⟨context, address, layout⟩))
    return address
  deallocate context address layout := do
    (service.deallocate context address layout).within Ledger.memoryPart
    Action.modify (Ledger.note (.returned ⟨context, address, layout⟩))

section Recorded

variable {service : MemoryService σ} {context : Context} {address : Address} {layout : Layout}
  {ledger : Ledger σ ν} {s : σ} {events : List Event}

/-- A grant is noted with the address that the service answered. -/
theorem recorded_allocate_of_ok
    (h : service.allocate context layout ledger.memory = ⟨s, events, .ok address⟩) :
    service.recorded.allocate context layout ledger =
      ⟨{ ledger with memory := s }.note (.granted ⟨context, address, layout⟩), events,
        .ok address⟩ := by
  simp [MemoryService.recorded, Action.bind_apply, Action.map_apply, Action.within,
    Ledger.memoryPart, h, Action.modify, Except.map]

/-- A refusal is passed on and not noted. -/
theorem recorded_allocate_of_error {error : AllocError}
    (h : service.allocate context layout ledger.memory = ⟨s, events, .error error⟩) :
    service.recorded.allocate context layout ledger =
      ⟨{ ledger with memory := s }, events, .error error⟩ := by
  simp [MemoryService.recorded, Action.bind_apply, Action.within, Ledger.memoryPart, h]

/-- A grant that comes back is noted as it was named to the service. -/
theorem recorded_deallocate :
    service.recorded.deallocate context address layout ledger =
      ⟨{ ledger with
          memory := (service.deallocate context address layout ledger.memory).state }.note
          (.returned ⟨context, address, layout⟩),
        (service.deallocate context address layout ledger.memory).events, .ok ()⟩ := by
  rcases h : service.deallocate context address layout ledger.memory with ⟨s, events, e | _⟩
  · exact e.elim
  · simp [MemoryService.recorded, Action.bind_apply, Action.within, Ledger.memoryPart, h,
      Action.modify]

end Recorded

/-- A service counts what is out: a request that it grants is added to the counts, one that it
refuses leaves them as they are, and a grant that comes back is taken off again. Nothing is said
about which requests it grants or where the grants lie. -/
structure MemoryService.Counts (service : MemoryService σ) (tally : σ → Tally) : Prop where
  granted {context : Context} {layout : Layout} {s s' : σ} {events : List Event}
    {address : Address} (h : service.allocate context layout s = ⟨s', events, .ok address⟩) :
    tally s' = (tally s).add layout
  refused {context : Context} {layout : Layout} {s s' : σ} {events : List Event}
    {error : AllocError} (h : service.allocate context layout s = ⟨s', events, .error error⟩) :
    tally s' = tally s
  returned (context : Context) (address : Address) (layout : Layout) (s : σ) :
    tally (service.deallocate context address layout s).state = (tally s).remove layout

/-- Over every heap, a host memory counts what is out. -/
theorem HostMemory.counts {η : Type} (heap : Heap η) : (service heap).Counts tally where
  granted {context layout m m' events address} h := by
    -- an empty request is granted without the heap, and not counted
    by_cases hzero : layout.size = 0
    · simp only [service, hzero, ↓reduceIte, Outcome.mk.injEq] at h
      rw [← h.1, Tally.add, if_pos hzero]
    · rcases hheap : heap.allocate layout m.heap with ⟨_ | address, left⟩
      · simp [service, hzero, hheap] at h
      · simp only [service, hzero, ↓reduceIte, hheap, Outcome.mk.injEq] at h
        rw [← h.1, Tally.add, if_neg hzero]
  refused {context layout m m' events error} h := by
    by_cases hzero : layout.size = 0
    · simp [service, hzero] at h
    · rcases hheap : heap.allocate layout m.heap with ⟨_ | address, left⟩
      · simp only [service, hzero, ↓reduceIte, hheap, Outcome.mk.injEq] at h
        rw [← h.1]
      · simp [service, hzero, hheap] at h
  returned context address layout m := by
    by_cases hzero : layout.size = 0 <;> simp [service, Tally.remove, hzero]

/-- Whatever the judge, a guarded memory counts what is out of the memory behind the guard. -/
theorem Guarded.counts {ρ η : Type} (heap : Heap η)
    (judge : HostMemory η → Context → Layout → ρ → Option AllocError × ρ) :
    (service heap judge).Counts fun g => g.memory.tally where
  granted {context layout g g' events address} h := by
    rcases hjudge : judge g.memory context layout g.guard with ⟨_ | refusal, guard⟩
    · rcases hmemory : (HostMemory.service heap).allocate context layout g.memory with
        ⟨m, asking, answer⟩
      simp only [service, hjudge, Action.within, memoryPart, hmemory, Outcome.mk.injEq] at h
      rw [← h.1]
      exact (HostMemory.counts heap).granted (h.2.2 ▸ hmemory)
    · simp [service, hjudge] at h
  refused {context layout g g' events error} h := by
    rcases hjudge : judge g.memory context layout g.guard with ⟨_ | refusal, guard⟩
    · rcases hmemory : (HostMemory.service heap).allocate context layout g.memory with
        ⟨m, asking, answer⟩
      simp only [service, hjudge, Action.within, memoryPart, hmemory, Outcome.mk.injEq] at h
      rw [← h.1]
      exact (HostMemory.counts heap).refused (h.2.2 ▸ hmemory)
    · simp only [service, hjudge, Outcome.mk.injEq] at h
      rw [← h.1]
  returned context address layout g := (HostMemory.counts heap).returned context address layout _

namespace Ledger

/-- The counts, with what came back added again, are what was given. -/
structure Counted (tally : σ → Tally) (ledger : Ledger σ ν) : Prop where
  bytes : (tally ledger.memory).liveBytes + (Grant.bytes ledger.returned).toUInt64 =
    (Grant.bytes ledger.granted).toUInt64
  occupied : (tally ledger.memory).liveAllocations + (Grant.occupied ledger.returned).toUInt64 =
    (Grant.occupied ledger.granted).toUInt64

namespace Counted

variable {service : MemoryService σ} {tally : σ → Tally} {ledger : Ledger σ ν} {s : σ}

/-- A fresh memory with nothing noted. -/
theorem fresh (h : tally s = {}) : (⟨s, [], []⟩ : Ledger σ ν).Counted tally := by
  constructor <;> simp [h, granted, returned, Grant.bytes, Grant.occupied]

/-- Only the counts and the transfers matter. -/
theorem congr (h : ledger.Counted tally) (hs : tally s = tally ledger.memory)
    (dropped : List ν) : Counted tally ⟨s, ledger.transfers, dropped⟩ :=
  ⟨hs ▸ h.bytes, hs ▸ h.occupied⟩

/-- A noted grant that was counted. -/
theorem note_granted (h : ledger.Counted tally) {grant : Grant}
    (hs : tally s = (tally ledger.memory).add grant.layout) :
    ({ ledger with memory := s }.note (.granted grant)).Counted tally := by
  obtain ⟨hbytes, hoccupied⟩ := (tally ledger.memory).counts_add grant.layout
  constructor
  · rw [granted_note_granted, returned_note_granted, Grant.toUInt64_bytes_concat]
    change (tally s).liveBytes + (Grant.bytes ledger.returned).toUInt64 =
      (Grant.bytes ledger.granted).toUInt64 + grant.layout.size.toUInt64
    rw [hs, hbytes, ← h.bytes, UInt64.add_assoc, UInt64.add_assoc,
      UInt64.add_comm grant.layout.size.toUInt64]
  · rw [granted_note_granted, returned_note_granted, Grant.toUInt64_occupied_concat]
    change (tally s).liveAllocations + (Grant.occupied ledger.returned).toUInt64 =
      (Grant.occupied ledger.granted).toUInt64 + grant.layout.weight
    rw [hs, hoccupied, ← h.occupied, UInt64.add_assoc, UInt64.add_assoc,
      UInt64.add_comm grant.layout.weight]

/-- A noted return that was counted. -/
theorem note_returned (h : ledger.Counted tally) {grant : Grant}
    (hs : tally s = (tally ledger.memory).remove grant.layout) :
    ({ ledger with memory := s }.note (.returned grant)).Counted tally := by
  obtain ⟨hbytes, hoccupied⟩ := (tally ledger.memory).counts_remove grant.layout
  constructor
  · rw [granted_note_returned, returned_note_returned, Grant.toUInt64_bytes_concat]
    change (tally s).liveBytes + ((Grant.bytes ledger.returned).toUInt64 +
      grant.layout.size.toUInt64) = (Grant.bytes ledger.granted).toUInt64
    rw [hs, hbytes, UInt64.add_comm _ grant.layout.size.toUInt64, ← UInt64.add_assoc,
      UInt64.sub_add_cancel, h.bytes]
  · rw [granted_note_returned, returned_note_returned, Grant.toUInt64_occupied_concat]
    change (tally s).liveAllocations + ((Grant.occupied ledger.returned).toUInt64 +
      grant.layout.weight) = (Grant.occupied ledger.granted).toUInt64
    rw [hs, hoccupied, UInt64.add_comm _ grant.layout.weight, ← UInt64.add_assoc,
      UInt64.sub_add_cancel, h.occupied]

/-- A request keeps the balance, granted or not. -/
theorem allocate (h : ledger.Counted tally) (counts : service.Counts tally) (context : Context)
    (layout : Layout) :
    (service.recorded.allocate context layout ledger).state.Counted tally := by
  rcases hs : service.allocate context layout ledger.memory with ⟨s, events, error | address⟩
  · rw [recorded_allocate_of_error hs]
    exact h.congr (counts.refused hs) ledger.dropped
  · rw [recorded_allocate_of_ok hs]
    exact h.note_granted (counts.granted hs)

/-- A grant that comes back keeps the balance. -/
theorem deallocate (h : ledger.Counted tally) (counts : service.Counts tally) (context : Context)
    (address : Address) (layout : Layout) :
    (service.recorded.deallocate context address layout ledger).state.Counted tally := by
  rw [recorded_deallocate]
  exact h.note_returned (counts.returned context address layout ledger.memory)

/-- If exactly the grants `live` are out, the counts are theirs, provided that their bytes fit a
word. -/
theorem of_perm (h : ledger.Counted tally) {live : List Grant}
    (hperm : ledger.granted.Perm (ledger.returned ++ live))
    (hfits : Grant.bytes live < Size.limit) :
    (tally ledger.memory).liveBytes.toNat = Grant.bytes live ∧
      (tally ledger.memory).liveAllocations.toNat = Grant.occupied live := by
  have hbytes : (tally ledger.memory).liveBytes = (Grant.bytes live).toUInt64 := by
    have hsum := h.bytes
    rw [Grant.bytes_perm hperm, Grant.bytes_append, Nat.toUInt64_eq, Nat.toUInt64_eq,
      UInt64.ofNat_add, UInt64.add_comm] at hsum
    exact (UInt64.add_right_inj _).mp hsum
  have hoccupied : (tally ledger.memory).liveAllocations = (Grant.occupied live).toUInt64 := by
    have hsum := h.occupied
    rw [Grant.occupied_perm hperm, Grant.occupied_append, Nat.toUInt64_eq, Nat.toUInt64_eq,
      UInt64.ofNat_add, UInt64.add_comm] at hsum
    exact (UInt64.add_right_inj _).mp hsum
  have hle := Grant.occupied_le_bytes live
  rw [hbytes, hoccupied]
  exact ⟨UInt64.toNat_ofNat_of_lt' hfits, UInt64.toNat_ofNat_of_lt' (Nat.lt_of_le_of_lt hle hfits)⟩

end Counted

end Ledger

end IdCompaction
