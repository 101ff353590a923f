import IdCompaction.Proofs.Table.Lineage

/-!
# Clearing restores the built table

A table that was built is vacant: every slot is empty, every owner is vacant, and nothing has been
counted. Whatever calls it goes through, and wherever they fault, the owners past the counter stay
vacant. That is why a clearing, which leaves these owners alone, gives back the very table that was
built, in the same arrays, however its loops are ordered.
-/

namespace IdCompaction.Table

variable {capacity : Nat} {t : Table capacity} {ids : List Id}

/-- Nothing is claimed, and every place shows the vacant mark. -/
structure IsVacant (t : Table capacity) : Prop where
  numItems : t.numItems = 0
  slots : ∀ slot, t.slots.get slot = ⟨vacant, vacant⟩
  owners : ∀ place, t.owners.get place = vacant

/-- A table that numbers the empty list is vacant. -/
theorem Numbers.isVacant (h : t.Numbers []) : t.IsVacant where
  numItems := h.numItems_eq
  slots slot := by
    have hslot : slot.val.toUInt32.toNat = slot.val :=
      (slot_toUInt32_eq_iff h.fits slot slot.val.toUInt32).mp rfl
    have hid : slot.val.toUInt32.toNat < capacity := hslot.trans_lt slot.isLt
    have hget := h.slots_get hid
    simp only [hslot] at hget
    rw [hget, Stage.slot_settled_of_notMem List.not_mem_nil]
    rfl
  owners place := by
    rw [h.owners_get]
    rfl

/-- Vacant tables hold the same in every place. -/
theorem IsVacant.contents_eq {other : Table capacity} (h : t.IsVacant) (hother : other.IsVacant) :
    t.slots.cells = other.slots.cells ∧ t.owners.cells = other.owners.cells ∧
      t.count = other.count := by
  refine ⟨?_, ?_, UInt32.toNat_inj.mp (h.numItems.trans hother.numItems.symm)⟩
  · ext i hi : 1
    exact (h.slots ⟨i, hi⟩).trans (hother.slots ⟨i, hi⟩).symm
  · ext i hi : 1
    exact (h.owners ⟨i, hi⟩).trans (hother.owners ⟨i, hi⟩).symm

/-- The owners past the counter are vacant. -/
theorem Numbers.owners_get_of_le (h : t.Numbers ids) {place : Fin capacity}
    (hplace : t.numItems ≤ place.val) : t.owners.get place = vacant := by
  rw [h.numItems_eq] at hplace
  rw [h.owners_get, List.getElem?_eq_none hplace]
  rfl

/-! ## Clearing in any order -/

/-- Forgets every claim, with the slots and the owners in the orders that are given. -/
def clearInOrder (slots owners : List (Fin capacity)) : Action Fault (Table capacity) Unit := do
  slots.forM fun slot => Action.modify fun t => t.putSlot slot Slot.empty
  owners.forM fun place => Action.modify fun t => t.putOwner place vacant
  Action.modify fun t => { t with count := 0 }
  Action.emit (.tableCleared capacity)

/-- Clearing goes back to the empty list, whatever order its loops take. -/
theorem Numbers.clearInOrder_eq (h : t.Numbers ids) {slots owners : List (Fin capacity)}
    (hslots : ∀ slot, slot ∈ slots)
    (howners : ∀ place : Fin capacity, place.val < t.numItems → place ∈ owners) :
    clearInOrder slots owners t =
      ⟨t.showing (.settled []), [.tableCleared capacity], .ok ()⟩ := by
  have hfirst : slots.forM (fun slot => Action.modify fun t : Table capacity =>
      t.putSlot slot Slot.empty) t =
      ⟨{ t with slots := t.slots.putAll slots Slot.empty }, [], (.ok () : Except Fault Unit)⟩ := by
    rw [← foldl_putSlot]
    exact Action.forM_eq_foldl slots (fun _ _ _ => rfl) t
  have hsecond (s : Table capacity) : owners.forM (fun place => Action.modify
      fun t : Table capacity => t.putOwner place vacant) s =
      ⟨{ s with owners := s.owners.putAll owners vacant }, [],
        (.ok () : Except Fault Unit)⟩ := by
    rw [← foldl_putOwner]
    exact Action.forM_eq_foldl owners (fun _ _ _ => rfl) s
  rw [← h.putAll_eq hslots howners, clearInOrder, Action.bind_apply_silent _ hfirst,
    Action.bind_apply_silent _ (hsecond _)]
  rfl

/-! ## After any history -/

/-- Whatever calls a built table has gone through, faults included, a clearing gives back the table
that was built, although it leaves the owners past the counter alone. Every table of the same
capacity that was just built, wherever it was, holds the same in every place. -/
theorem clear_restores_built {σ : Type} {service : MemoryService σ} {context : Context} {s : σ}
    {first : Table capacity} {claimed : List Id}
    (built : (allocate service context capacity s).result = .ok first)
    (h : Lineage first t claimed) :
    first.IsVacant ∧
      (∀ place : Fin capacity, t.numItems ≤ place.val → t.owners.get place = vacant) ∧
      (∀ pool, clear pool t = ⟨first, [.tableCleared capacity], .ok ()⟩) ∧
      (∀ slots owners : List (Fin capacity), (∀ slot, slot ∈ slots) →
        (∀ place : Fin capacity, place ∈ owners ↔ place.val < t.numItems) →
        clearInOrder slots owners t = ⟨first, [.tableCleared capacity], .ok ()⟩) ∧
      ∀ {σ' : Type} (service' : MemoryService σ') (context' : Context) (s' : σ')
        (other : Table capacity), (allocate service' context' capacity s').result = .ok other →
        first.slots.cells = other.slots.cells ∧ first.owners.cells = other.owners.cells ∧
          first.count = other.count := by
  have hfirst := numbers_of_allocate built
  obtain ⟨ids, hplace, hids, -⟩ := h.holds hfirst
  have hrestored : t.showing (.settled []) = first := by
    rw [hplace]
    exact hfirst.contents
  refine ⟨hfirst.isVacant, fun place => hids.owners_get_of_le, fun pool => ?_,
    fun slots owners hslots howners => ?_, fun service' context' s' other hother => ?_⟩
  · rw [hids.clear_eq pool, hrestored]
  · rw [hids.clearInOrder_eq hslots fun place => (howners place).mpr, hrestored]
  · exact hfirst.isVacant.contents_eq (numbers_of_allocate hother).isVacant

/-- A table of four slots that went through a batch with an ID past the capacity, cut into two runs,
and a claim that faults, is cleared to the table that was built. -/
theorem clear_restores_built_four :
    ∃ first last : Table 4,
      (allocate (HostMemory.service (Arena.heap 4096)) .cpu 4 (.fresh {})).result = .ok first ∧
      last = (Table.insert 7 (Table.insertAll ⟨2, 1⟩ #[3, 9, 1, 2] first).state).state ∧
      last.numItems = 3 ∧
      clear ⟨2, 1⟩ last = ⟨first, [.tableCleared 4], .ok ()⟩ := by
  obtain ⟨first, built, hcount⟩ : ∃ first : Table 4,
      (allocate (HostMemory.service (Arena.heap 4096)) .cpu 4 (.fresh {})).result = .ok first ∧
      (Table.insert 7 (Table.insertAll ⟨2, 1⟩ #[3, 9, 1, 2] first).state).state.numItems = 3 :=
    ⟨_, rfl, by decide +kernel⟩
  have h : Lineage first _ _ := (Lineage.start.insertAll ⟨2, 1⟩ #[3, 9, 1, 2]).insert 7
  exact ⟨first, _, built, rfl, hcount, (clear_restores_built built h).2.2.1 ⟨2, 1⟩⟩

end IdCompaction.Table
