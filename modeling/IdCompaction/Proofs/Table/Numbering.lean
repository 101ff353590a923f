import IdCompaction.Proofs.Memory.Built
import IdCompaction.Proofs.Table.Stage
import IdCompaction.Table.Batch
import Mathlib.Data.List.Nodup
import Mathlib.Data.List.Perm.Subperm

/-!
# Tables that number a list

Between operations a table numbers a list of distinct IDs: the local ID of an ID is its place in the
list, slots and owners say so in opposite directions, and everything else is vacant. Building a
table numbers the empty list, claiming an ID puts it at the end of the list unless it is there, and
a claim that faults changes nothing. What a claim does is one equation between tables, put together
from its four accesses.
-/

namespace IdCompaction

/-- A list with one more ID at its end, unless the list has it. -/
def appendNew (ids : List Id) (id : Id) : List Id := if id ∈ ids then ids else ids ++ [id]

/-- An ID that the list has is not put there again. -/
theorem appendNew_of_mem {ids : List Id} {id : Id} (h : id ∈ ids) : appendNew ids id = ids :=
  if_pos h

/-- Any other is put at the end. -/
theorem appendNew_of_notMem {ids : List Id} {id : Id} (h : id ∉ ids) :
    appendNew ids id = ids ++ [id] := if_neg h

namespace Table

variable {capacity : Nat}

/-- A table gives the IDs of a list their places as local IDs, and no claim is under way. -/
structure Numbers (t : Table capacity) (ids : List Id) : Prop where
  fits : capacity ≤ vacant.toNat
  nodup : ids.Nodup
  inRange : ∀ id ∈ ids, id.toNat < capacity
  contents : t.showing (.settled ids) = t

/-- Distinct IDs below the capacity are no more than the capacity. -/
theorem length_le_capacity {ids : List Id} (nodup : ids.Nodup)
    (inRange : ∀ id ∈ ids, id.toNat < capacity) : ids.length ≤ capacity := by
  have hnodup : (ids.map UInt32.toNat).Nodup :=
    nodup.map fun _ _ h => UInt32.toNat_inj.mp h
  have hsubset : ids.map UInt32.toNat ⊆ List.range capacity := by
    intro number hnumber
    obtain ⟨id, hid, rfl⟩ := List.mem_map.mp hnumber
    exact List.mem_range.mpr (inRange id hid)
  simpa using (List.subperm_of_subset hnodup hsubset).length_le

namespace Numbers

variable {t : Table capacity} {ids : List Id} {id : Id}

/-- A table numbers no more IDs than it has slots. -/
theorem length_le (h : t.Numbers ids) : ids.length ≤ capacity :=
  length_le_capacity h.nodup h.inRange

/-- No list that a table numbers is too long for a local ID. -/
theorem length_lt_size (h : t.Numbers ids) : ids.length < UInt32.size := by
  have hlength := h.length_le
  have hfits := h.fits
  rw [vacant_toNat] at hfits
  simp only [UInt32.size]
  omega

/-- A place in the list is a local ID. -/
theorem toNat_toUInt32 (h : t.Numbers ids) {number : Nat} (hnumber : number ≤ ids.length) :
    number.toUInt32.toNat = number :=
  UInt32.toNat_ofNat_of_lt (Nat.lt_of_le_of_lt hnumber h.length_lt_size)

/-- The slot of an ID is the one that its place in the list gives it. -/
theorem slots_get (h : t.Numbers ids) (hid : id.toNat < capacity) :
    t.slots.get ⟨id.toNat, hid⟩ = (Stage.settled ids).slot id := by
  rw [← h.contents, slots_get_showing]

/-- The owner of a local ID is the ID at that place in the list. -/
theorem owners_get (h : t.Numbers ids) (place : Fin capacity) :
    t.owners.get place = ids[place.val]?.getD vacant := by
  rw [← h.contents, owners_get_showing, Stage.owner_settled]

/-- The counter is the length of the list. -/
theorem count_eq (h : t.Numbers ids) : t.count = ids.length.toUInt32 := by
  rw [← h.contents]
  rfl

/-- The counter is the length of the list. -/
theorem numItems_eq (h : t.Numbers ids) : t.numItems = ids.length := by
  rw [numItems, h.count_eq, h.toNat_toUInt32 (Nat.le_refl _)]

/-- Every admissible list is numbered by some table in given arrays. -/
theorem of_showing (base : Table capacity) (fits : capacity ≤ vacant.toNat) (nodup : ids.Nodup)
    (inRange : ∀ id ∈ ids, id.toNat < capacity) :
    (base.showing (.settled ids)).Numbers ids :=
  ⟨fits, nodup, inRange, rfl⟩

end Numbers

/-! ## Building -/

/-- A table that was built is empty, and its capacity is below the vacant mark. -/
theorem numbers_of_allocate {σ : Type} {service : MemoryService σ} {context : Context} {s : σ}
    {t : Table capacity} (h : (allocate service context capacity s).result = .ok t) :
    t.Numbers [] := by
  unfold allocate at h
  by_cases hfits : vacant.toNat < capacity
  · rw [if_pos hfits] at h
    cases h
  · rw [if_neg hfits] at h
    obtain ⟨slots, hslots, h⟩ := Action.result_bind_eq_ok_iff.mp h
    obtain ⟨owners, howners, h⟩ := Action.result_bind_eq_ok_iff.mp h
    obtain ⟨_, -, h⟩ := Action.result_bind_eq_ok_iff.mp h
    cases h
    rw [Action.result_onError_eq_ok_iff] at howners
    refine ⟨Nat.le_of_not_lt hfits, List.nodup_nil, by simp, showing_eq_self _ ?_ ?_ rfl⟩
    · intro slot
      rw [Stage.slot_settled_of_notMem List.not_mem_nil]
      exact (Except.ok.inj (Buffer.get_of_build hslots slot)).symm
    · intro place
      rw [Stage.owner_settled]
      exact (Except.ok.inj (Buffer.get_of_build howners place)).symm

/-! ## Claiming -/

/-- Claiming an ID past the capacity is a fault that changes nothing. -/
theorem insert_of_le (t : Table capacity) {id : Id} (h : capacity ≤ id.toNat) :
    insert id t = ⟨t, [], .error (.idOutOfRange id capacity)⟩ := by
  rw [insert, claimId_of_le h]
  rfl

section Claiming

variable {t : Table capacity} {ids : List Id} (h : t.Numbers ids) {id : Id}
  (hid : id.toNat < capacity)

include h hid

/-- Claiming an ID of the list loses and changes nothing. -/
theorem Numbers.insert_of_mem (hmem : id ∈ ids) : insert id t = ⟨t, [], .ok false⟩ := by
  have hlost := apply_claim_lost t ids [] [] [] h.fits hid (.inl hmem)
  rw [← Stage.settled, h.contents] at hlost
  rw [insert, claimId_eq hid, perform_access, hlost]
  rfl

/-- Claiming another ID wins and puts it at the end of the list. -/
theorem Numbers.insert_of_notMem (hmem : id ∉ ids) :
    insert id t = ⟨t.showing (.settled (ids ++ [id])), [], .ok true⟩ := by
  have hnodup : (ids ++ [id]).Nodup := by
    rw [← List.concat_eq_append]
    exact h.nodup.concat hmem
  have hplace : (ids ++ [id])[ids.length]? = some id := by simp
  have hroom : (ids ++ [id]).length ≤ capacity :=
    length_le_capacity hnodup fun other hother => by
      obtain hother | hother := List.mem_append.mp hother
      · exact h.inRange other hother
      · rwa [List.mem_singleton.mp hother]
  have hnumber := h.toNat_toUInt32 (Nat.le_refl ids.length)
  have hlt : ids.length.toUInt32.toNat < capacity := by
    rw [hnumber]
    simpa [Nat.succ_le_iff] using hroom
  -- the four accesses move the ID from one stage to the next
  have hclaim := apply_claim_won t ids [] [] [] h.fits hid hmem List.not_mem_nil
  have htake := apply_takeNumber t ids [] [] [] hmem
  have hlocal := apply_writeLocal t (ids ++ [id]) [] [] [] h.fits hid hnodup hplace
    List.not_mem_nil
  have hnext : (ids ++ [id])[ids.length.toUInt32.toNat]? = some id := by rw [hnumber, hplace]
  have howner := apply_writeOwner t (ids ++ [id]) [] [] [] hnodup
    ⟨ids.length.toUInt32.toNat, hlt⟩ hnext List.not_mem_nil List.not_mem_nil
  rw [← Stage.settled, h.contents] at hclaim
  rw [insert, claimId_eq hid, perform_access, hclaim, if_pos rfl, perform_access, htake,
    perform_access, hlocal, dif_pos hlt, perform_access, howner]
  rfl

/-- Claiming an ID puts it at the end of the list, unless it is in the list. -/
theorem Numbers.insert_eq :
    insert id t =
      ⟨t.showing (.settled (appendNew ids id)), [], .ok (decide (id ∉ ids))⟩ := by
  by_cases hmem : id ∈ ids
  · rw [h.insert_of_mem hid hmem, appendNew_of_mem hmem, h.contents]
    simp [hmem]
  · rw [h.insert_of_notMem hid hmem, appendNew_of_notMem hmem]
    simp [hmem]

/-- The longer list is numbered again. -/
theorem Numbers.append :
    (t.showing (.settled (appendNew ids id))).Numbers (appendNew ids id) := by
  by_cases hmem : id ∈ ids
  · rwa [appendNew_of_mem hmem, h.contents]
  · rw [appendNew_of_notMem hmem]
    refine .of_showing t h.fits ?_ fun other hother => ?_
    · rw [← List.concat_eq_append]
      exact h.nodup.concat hmem
    · obtain hother | hother := List.mem_append.mp hother
      · exact h.inRange other hother
      · rwa [List.mem_singleton.mp hother]

end Claiming

end Table

end IdCompaction
