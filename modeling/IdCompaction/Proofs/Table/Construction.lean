import IdCompaction.Proofs.Memory.Built
import IdCompaction.Proofs.Memory.Journal
import IdCompaction.Table.Basic

/-!
# Building and dropping a table

A table asks for its slots and then, if those were granted, for its owners, on one context. If the
owners are refused, the slots go back as they came. `Constructs` tells the four ways for this to
end, each with everything that passes between the table and the service. Nothing is assumed about
the service, which may refuse whatever it likes and do with its own state what it likes.

If the service counts what is out, what a failed construction did to the counts is undone when it
returns. A successful one adds both arrays to the counts, and dropping the table takes both off
again.
-/

namespace IdCompaction

namespace Table

variable {σ : Type} {capacity : Nat} {service : MemoryService σ} {context : Context}

/-! ## Where the arrays lie -/

/-- The layout of the slots: eight bytes each. -/
def slotsLayout (capacity : Nat) : Layout := ⟨8 * capacity, 4⟩

/-- The layout of the owners: four bytes each. -/
def ownersLayout (capacity : Nat) : Layout := ⟨4 * capacity, 4⟩

/-- The grant that the slots lie in. -/
def slotsGrant (t : Table capacity) : Grant :=
  ⟨t.slots.context, t.slots.address, slotsLayout capacity⟩

/-- The grant that the owners lie in. -/
def ownersGrant (t : Table capacity) : Grant :=
  ⟨t.owners.context, t.owners.address, ownersLayout capacity⟩

/-- A table without claims, with its arrays at two addresses. -/
def emptyAt (context : Context) (slots owners : Address) : Table capacity where
  slots := ⟨context, slots, .replicate capacity Slot.empty⟩
  owners := ⟨context, owners, .replicate capacity vacant⟩
  count := 0

/-- The slots of a table have a layout. -/
theorem array_slotElement (h : capacity ≤ vacant.toNat) :
    (slotElement : Element σ Slot).layout.array capacity = some (slotsLayout capacity) := by
  rw [vacant_toNat] at h
  refine Layout.array_eq_some_iff.mpr ⟨?_, rfl⟩
  change 8 * capacity ≤ 9223372036854775807
  omega

/-- The owners of a table have a layout. -/
theorem array_ownerElement (h : capacity ≤ vacant.toNat) :
    (ownerElement : Element σ Cell).layout.array capacity = some (ownersLayout capacity) := by
  rw [vacant_toNat] at h
  refine Layout.array_eq_some_iff.mpr ⟨?_, rfl⟩
  change 4 * capacity ≤ 9223372036854775807
  omega

/-! ## The requests -/

/-- A table that is too large asks for nothing. -/
theorem allocate_of_lt (h : vacant.toNat < capacity) (s : σ) :
    allocate service context capacity s =
      ⟨s, [], .error (.fault (.capacityTooLarge capacity))⟩ := by
  rw [allocate, if_pos h]
  rfl

/-- A table that is not too large asks twice, and gives the first grant back if the second request
is refused. -/
theorem allocate_of_le (h : capacity ≤ vacant.toNat) :
    allocate service context capacity = (do
      let slots ← (service.allocate context (slotsLayout capacity)).mapError Failure.refused
      let owners ←
        ((service.allocate context (ownersLayout capacity)).mapError Failure.refused).onError
          (service.deallocate context slots (slotsLayout capacity))
      Action.emit (.tableAllocated capacity context)
      return emptyAt context slots owners) := by
  have hback (slots : Address) : Buffer.free service slotElement
      ⟨context, slots, .replicate capacity Slot.empty⟩ =
        service.deallocate context slots (slotsLayout capacity) :=
    Buffer.free_plain _ (array_slotElement h)
  rw [allocate, if_neg (Nat.not_lt.mpr h), Buffer.build_const (array_slotElement h),
    Buffer.build_const (array_ownerElement h)]
  simp only [bind_assoc, pure_bind, hback, Action.onError_bind_pure]
  rfl

/-- Dropping a table gives back both grants, the slots first. -/
theorem free_eq (h : capacity ≤ vacant.toNat) (t : Table capacity) :
    t.free service = (do
      service.deallocate t.slots.context t.slots.address (slotsLayout capacity)
      service.deallocate t.owners.context t.owners.address (ownersLayout capacity)) := by
  have hslots : Buffer.free service slotElement t.slots = _ :=
    Buffer.free_plain t.slots (array_slotElement h)
  have howners : Buffer.free service ownerElement t.owners = _ :=
    Buffer.free_plain t.owners (array_ownerElement h)
  rw [free, hslots, howners]

/-- The ways for a construction to end in state `s` of the service: everything that passed between
the table and the service, and the outcome. -/
inductive Constructs (service : MemoryService σ) (context : Context) (capacity : Nat) (s : σ) :
    List Dealing → Outcome Failure σ (Table capacity) → Prop
  /-- The table is too large: nothing is asked. -/
  | tooLarge (h : vacant.toNat < capacity) :
      Constructs service context capacity s []
        ⟨s, [], .error (.fault (.capacityTooLarge capacity))⟩
  /-- The slots are refused: nothing else is asked. -/
  | slotsRefused {s₁ : σ} {asking : List Event} {error : AllocError}
      (hfits : capacity ≤ vacant.toNat)
      (hslots : service.allocate context (slotsLayout capacity) s = ⟨s₁, asking, .error error⟩) :
      Constructs service context capacity s [.asked context (slotsLayout capacity) (.error error)]
        ⟨s₁, asking, .error (.refused error)⟩
  /-- The slots are granted and the owners are refused: the slots go back. -/
  | ownersRefused {s₁ s₂ s₃ : σ} {asking askingMore returning : List Event} {slots : Address}
      {error : AllocError} (hfits : capacity ≤ vacant.toNat)
      (hslots : service.allocate context (slotsLayout capacity) s = ⟨s₁, asking, .ok slots⟩)
      (howners : service.allocate context (ownersLayout capacity) s₁ =
        ⟨s₂, askingMore, .error error⟩)
      (hback : service.deallocate context slots (slotsLayout capacity) s₂ =
        ⟨s₃, returning, .ok ()⟩) :
      Constructs service context capacity s
        [.asked context (slotsLayout capacity) (.ok slots),
          .asked context (ownersLayout capacity) (.error error),
          .gaveBack ⟨context, slots, slotsLayout capacity⟩]
        ⟨s₃, asking ++ (askingMore ++ returning), .error (.refused error)⟩
  /-- Both are granted: the table has no claims and lies in them. -/
  | built {s₁ s₂ : σ} {asking askingMore : List Event} {slots owners : Address}
      (hfits : capacity ≤ vacant.toNat)
      (hslots : service.allocate context (slotsLayout capacity) s = ⟨s₁, asking, .ok slots⟩)
      (howners : service.allocate context (ownersLayout capacity) s₁ =
        ⟨s₂, askingMore, .ok owners⟩) :
      Constructs service context capacity s
        [.asked context (slotsLayout capacity) (.ok slots),
          .asked context (ownersLayout capacity) (.ok owners)]
        ⟨s₂, asking ++ (askingMore ++ [.tableAllocated capacity context]),
          .ok (emptyAt context slots owners)⟩

section Requests

variable {s s₁ s₂ s₃ : σ} {asking askingMore returning : List Event} {slots owners : Address}
  {error : AllocError}

/-- If the slots are refused, nothing was granted, and nothing else is asked for. -/
theorem allocate_of_slotsRefused (hfits : capacity ≤ vacant.toNat)
    (hslots : service.allocate context (slotsLayout capacity) s = ⟨s₁, asking, .error error⟩) :
    allocate service context capacity s = ⟨s₁, asking, .error (.refused error)⟩ := by
  rw [allocate_of_le hfits]
  apply Action.bind_apply_error
  simp only [Action.mapError, hslots]

/-- If the owners are refused, the slots go back. -/
theorem allocate_of_ownersRefused (hfits : capacity ≤ vacant.toNat)
    (hslots : service.allocate context (slotsLayout capacity) s = ⟨s₁, asking, .ok slots⟩)
    (howners : service.allocate context (ownersLayout capacity) s₁ =
      ⟨s₂, askingMore, .error error⟩)
    (hback : service.deallocate context slots (slotsLayout capacity) s₂ =
      ⟨s₃, returning, .ok ()⟩) :
    allocate service context capacity s =
      ⟨s₃, asking ++ (askingMore ++ returning), .error (.refused error)⟩ := by
  rw [allocate_of_le hfits]
  simp only [Action.bind_apply, Action.mapError, Action.onError, hslots, howners, hback]

/-- If both are granted, the table is empty. -/
theorem allocate_of_granted (hfits : capacity ≤ vacant.toNat)
    (hslots : service.allocate context (slotsLayout capacity) s = ⟨s₁, asking, .ok slots⟩)
    (howners : service.allocate context (ownersLayout capacity) s₁ =
      ⟨s₂, askingMore, .ok owners⟩) :
    allocate service context capacity s =
      ⟨s₂, asking ++ (askingMore ++ [.tableAllocated capacity context]),
        .ok (emptyAt context slots owners)⟩ := by
  rw [allocate_of_le hfits]
  simp only [Action.bind_apply, Action.mapError, Action.onError, hslots, howners, Action.emit,
    Action.pure_apply, List.append_nil]

end Requests

/-- A construction ends in one of the four ways, and a journal in front of the service notes what
passes and nothing else. -/
theorem exists_constructs (service : MemoryService σ) (context : Context) (capacity : Nat) (s : σ) :
    ∃ dealings, Constructs service context capacity s dealings
        (allocate service context capacity s) ∧
      ∀ before, allocate service.journaled context capacity ⟨s, before⟩ =
        (allocate service context capacity s).withDealings (before ++ dealings) := by
  -- the lemmas on the requests hold of any service: here of this one, and of it with its journal
  by_cases hfits : capacity ≤ vacant.toNat
  · rcases hslots : service.allocate context (slotsLayout capacity) s with
      ⟨s₁, asking, error | slots⟩
    · rw [allocate_of_slotsRefused hfits hslots]
      exact ⟨_, .slotsRefused hfits hslots, fun before =>
        allocate_of_slotsRefused hfits (journaled_allocate hslots before)⟩
    · rcases howners : service.allocate context (ownersLayout capacity) s₁ with
        ⟨s₂, askingMore, error | owners⟩
      · rcases hback : service.deallocate context slots (slotsLayout capacity) s₂ with
          ⟨s₃, returning, impossible | _⟩
        · exact impossible.elim
        · rw [allocate_of_ownersRefused hfits hslots howners hback]
          refine ⟨_, .ownersRefused hfits hslots howners hback, fun before => ?_⟩
          rw [allocate_of_ownersRefused hfits (journaled_allocate hslots _)
            (journaled_allocate howners _) (journaled_deallocate hback _)]
          simp [Outcome.withDealings]
      · rw [allocate_of_granted hfits hslots howners]
        refine ⟨_, .built hfits hslots howners, fun before => ?_⟩
        rw [allocate_of_granted hfits (journaled_allocate hslots _) (journaled_allocate howners _)]
        simp [Outcome.withDealings]
  · rw [allocate_of_lt (Nat.lt_of_not_le hfits)]
    refine ⟨[], .tooLarge (Nat.lt_of_not_le hfits), fun before => ?_⟩
    rw [allocate_of_lt (Nat.lt_of_not_le hfits), List.append_nil]
    rfl

/-- Dropping a table gives back its grants, and a journal in front of the service notes these two
and nothing else. -/
theorem free_journaled (h : capacity ≤ vacant.toNat) (service : MemoryService σ)
    (t : Table capacity) (s : σ) (before : List Dealing) :
    t.free service.journaled ⟨s, before⟩ =
      (t.free service s).withDealings
        (before ++ [.gaveBack t.slotsGrant, .gaveBack t.ownersGrant]) := by
  rw [free_eq h, free_eq h]
  rcases hslots : service.deallocate t.slots.context t.slots.address (slotsLayout capacity) s with
    ⟨s₁, returning, impossible | _⟩
  · exact impossible.elim
  · rw [Action.bind_apply_ok _ hslots, Action.bind_apply_ok _ (journaled_deallocate hslots before)]
    simp [MemoryService.journaled, Outcome.withDealings, slotsGrant, ownersGrant]

/-- What is built is not too large. -/
theorem Constructs.fits_of_ok {s : σ} {dealings : List Dealing}
    {outcome : Outcome Failure σ (Table capacity)} {t : Table capacity}
    (h : Constructs service context capacity s dealings outcome) (hbuilt : outcome.result = .ok t) :
    capacity ≤ vacant.toNat := by
  cases h with
  | tooLarge h => cases hbuilt
  | slotsRefused hfits hslots => exact hfits
  | ownersRefused hfits hslots howners hback => exact hfits
  | built hfits hslots howners => exact hfits

/-! ## The counts -/

section Counts

variable {tally : σ → Tally} {s : σ} {dealings : List Dealing}
  {outcome : Outcome Failure σ (Table capacity)}

/-- A construction that fails leaves the counts as they were. -/
theorem Constructs.tally_of_error (h : Constructs service context capacity s dealings outcome)
    (counts : service.Counts tally) {failure : Failure}
    (hfailed : outcome.result = .error failure) : tally outcome.state = tally s := by
  cases h with
  | tooLarge h => rfl
  | slotsRefused hfits hslots => exact counts.refused hslots
  | @ownersRefused s₁ s₂ s₃ _ _ _ slots _ hfits hslots howners hback =>
    have hreturned := counts.returned context slots (slotsLayout capacity) s₂
    rw [hback] at hreturned
    calc tally s₃ = (tally s₂).remove (slotsLayout capacity) := hreturned
      _ = ((tally s).add (slotsLayout capacity)).remove (slotsLayout capacity) := by
        rw [counts.refused howners, counts.granted hslots]
      _ = tally s := Tally.remove_add ..
  | built hfits hslots howners => cases hfailed

/-- A table that was built adds both of its arrays to the counts. -/
theorem Constructs.tally_of_ok (h : Constructs service context capacity s dealings outcome)
    (counts : service.Counts tally) {t : Table capacity} (hbuilt : outcome.result = .ok t) :
    tally outcome.state =
      ((tally s).add (slotsLayout capacity)).add (ownersLayout capacity) := by
  cases h with
  | tooLarge h => cases hbuilt
  | slotsRefused hfits hslots => cases hbuilt
  | ownersRefused hfits hslots howners hback => cases hbuilt
  | built hfits hslots howners => rw [counts.granted howners, counts.granted hslots]

/-- Dropping a table takes both of its arrays off the counts. -/
theorem tally_free (counts : service.Counts tally) (hfits : capacity ≤ vacant.toNat)
    (t : Table capacity) (s : σ) :
    tally (t.free service s).state =
      ((tally s).remove (slotsLayout capacity)).remove (ownersLayout capacity) := by
  have hreturned := counts.returned t.slots.context t.slots.address (slotsLayout capacity) s
  rw [free_eq hfits]
  rcases hslots : service.deallocate t.slots.context t.slots.address (slotsLayout capacity) s with
    ⟨s₁, returning, impossible | _⟩
  · exact impossible.elim
  · rw [hslots] at hreturned
    rw [Action.bind_apply_ok _ hslots, ← hreturned]
    exact counts.returned t.owners.context t.owners.address (ownersLayout capacity) s₁

/-- Dropping a table as soon as it was built restores the counts. -/
theorem Constructs.tally_free (h : Constructs service context capacity s dealings outcome)
    (counts : service.Counts tally) {t : Table capacity} (hbuilt : outcome.result = .ok t) :
    tally (t.free service outcome.state).state = tally s := by
  rw [Table.tally_free counts (h.fits_of_ok hbuilt), h.tally_of_ok counts hbuilt,
    Tally.remove_comm, Tally.remove_add, Tally.remove_add]

/-- An empty table takes no memory, so that its construction leaves the counts as they were. -/
theorem Constructs.tally_of_empty (h : Constructs service context capacity s dealings outcome)
    (counts : service.Counts tally) (hempty : capacity = 0) : tally outcome.state = tally s := by
  subst hempty
  rcases hresult : outcome.result with failure | t
  · exact h.tally_of_error counts hresult
  · exact h.tally_of_ok counts hresult

end Counts

end Table

end IdCompaction
